import CallbackLocks.Proofs.Exclusion
import CallbackLocks.Scenario.Run
import CallbackLocks.Scenario.Table
import CallbackLocks.Proofs.Runs.Conduct
import CallbackLocks.Proofs.Runs.Safe
import CallbackLocks.Proofs.Runs.Operations
import CallbackLocks.Proofs.Runs.Workshop
import CallbackLocks.Proofs.Runs.Invariant
import CallbackLocks.Proofs.Ownership
import CallbackLocks.Proofs.Contract
import CallbackLocks.Proofs.Accounts
import CallbackLocks.Proofs.Concert.System
import CallbackLocks.Proofs.Concert.Tables
import CallbackLocks.Proofs.Concert.Serial
import CallbackLocks.Proofs.Serializability
import CallbackLocks.Proofs.Concert.Sessions
import CallbackLocks.Proofs.Concert.Courses
import CallbackLocks.Proofs.Singleton
import CallbackLocks.Proofs.Alternation
import CallbackLocks.Proofs.Alone.Effects
import CallbackLocks.Proofs.Alone.Twins
import CallbackLocks.Proofs.Editions
import CallbackLocks.Proofs.ForeignCallbacks
import CallbackLocks.Proofs.Sizes
import CallbackLocks.Proofs.Cleaning
import CallbackLocks.Proofs.Atomicity
import CallbackLocks.Proofs.Removal
import CallbackLocks.Proofs.Undoing
import CallbackLocks.Proofs.Readiness
import CallbackLocks.Proofs.Dispatching
import CallbackLocks.Proofs.Independence
import CallbackLocks.Proofs.Runs.Passage
import CallbackLocks.Proofs.Reliance
import CallbackLocks.Proofs.Alone.Moves
import CallbackLocks.Proofs.FailedSessions
import CallbackLocks.Proofs.Draining
import CallbackLocks.Proofs.ErrorTexts
import CallbackLocks.Proofs.ServerNames
import CallbackLocks.Proofs.Inquiry
