import CallbackLocks.Errors.Code

/-!
# Error strings

The names of libraries and reasons, as the host library knows them.

* `ErrorStrings`           byte strings, each for a reason of a library
* `ErrorStrings.builtin`   those that are always there
* `ErrorStrings.load`      one more string; it hides an older one for the same reason
* `ErrorStrings.library`, `ErrorStrings.reason`   the strings of a code
* `ErrorStrings.names`     both for all codes

The string for reason zero names the library.  A reason that a library does not name may be one
that all libraries share, which are the reasons of library zero.  A string ends before its first
zero byte, and one that is not UTF-8 reads as missing.
-/

namespace CallbackLocks

/-- Byte strings for the reasons of libraries, the newest first. -/
structure ErrorStrings where
  entries : List ((Nat × Nat) × List UInt8)
deriving DecidableEq, Inhabited

namespace ErrorStrings

/-! ## the strings that are always there -/

def libraryNames : List (Nat × String) :=
  [(1, "unknown library"), (2, "system library"), (3, "bignum routines"), (4, "rsa routines"),
   (5, "Diffie-Hellman routines"), (6, "digital envelope routines"),
   (7, "memory buffer routines"), (8, "object identifier routines"), (9, "PEM routines"),
   (10, "dsa routines"), (11, "x509 certificate routines"), (13, "asn1 encoding routines"),
   (14, "configuration file routines"), (15, "common libcrypto routines"),
   (16, "elliptic curve routines"), (20, "SSL routines"), (32, "BIO routines"),
   (33, "PKCS7 routines"), (34, "X509 V3 routines"), (35, "PKCS12 routines"),
   (36, "random number generator"), (37, "DSO support routines"), (38, "engine routines"),
   (39, "OCSP routines"), (40, "UI routines"), (42, "ECDSA routines"), (43, "ECDH routines"),
   (44, "STORE routines"), (45, "FIPS routines"), (46, "CMS routines"),
   (47, "time stamp routines"), (48, "HMAC routines"), (50, "CT routines"),
   (51, "ASYNC routines"), (52, "KDF routines"), (53, "SM2 routines"), (54, "ESS routines"),
   (56, "CRMF routines"), (57, "Provider routines"), (58, "CMP routines"),
   (59, "ENCODER routines"), (60, "DECODER routines"), (61, "HTTP routines")]

/-- where the reasons start that stand for the failure of a library -/
def sharedReasons : Nat := 524288

/-- where the reasons start that end an operation at once -/
def fatalReasons : Nat := 786432

/-- reasons that all libraries share, counted from `sharedReasons` -/
def sharedReasonNames : List (Nat × String) :=
  [(2, "system lib"), (3, "BN lib"), (4, "RSA lib"), (5, "DH lib"), (6, "EVP lib"),
   (7, "BUF lib"), (8, "OBJ lib"), (9, "PEM lib"), (10, "DSA lib"), (11, "X509 lib"),
   (13, "ASN1 lib"), (15, "CRYPTO lib"), (16, "EC lib"), (32, "BIO lib"), (33, "PKCS7 lib"),
   (34, "X509V3 lib"), (38, "ENGINE lib"), (40, "UI lib"), (42, "ECDSA lib"),
   (44, "OSSL_STORE lib"), (60, "OSSL_DECODER lib"), (262, "passed invalid argument"),
   (265, "interrupted or cancelled"), (266, "nested asn1 error"), (267, "missing asn1 eos"),
   (268, "unsupported"), (269, "fetch failed"), (270, "invalid property definition")]

/-- reasons that all libraries share, counted from `fatalReasons` -/
def fatalReasonNames : List (Nat × String) :=
  [(0, "fatal"), (256, "malloc failure"), (257, "called a function you should not call"),
   (258, "passed a null parameter"), (259, "internal error"),
   (260, "called a function that was disabled at compile-time"), (261, "init fail"),
   (263, "operation fail"), (264, "invalid provider functions"),
   (271, "unable to get read lock"), (272, "unable to get write lock")]

/-- the library of the reasons `tlsReasonNames` -/
def tlsLibrary : Nat := 20

def tlsReasonNames : List (Nat × String) :=
  [(134, "certificate verify failed"), (267, "wrong version number"),
   (319, "ssl3 ext invalid servername")]

/-- the library of the reasons `randomReasonNames` -/
def randomLibrary : Nat := 36

def randomReasonNames : List (Nat × String) := [(101, "Function not implemented")]

/-- the strings that are there before any is loaded -/
def builtin : ErrorStrings where
  entries :=
    libraryNames.map (fun e => ((e.1, 0), e.2.toUTF8.toList))
    ++ sharedReasonNames.map (fun e => ((0, sharedReasons + e.1), e.2.toUTF8.toList))
    ++ fatalReasonNames.map (fun e => ((0, fatalReasons + e.1), e.2.toUTF8.toList))
    ++ tlsReasonNames.map (fun e => ((tlsLibrary, e.1), e.2.toUTF8.toList))
    ++ randomReasonNames.map (fun e => ((randomLibrary, e.1), e.2.toUTF8.toList))

/-! ## loading and reading -/

/-- The place of a reason of a library.  What of a reason does not fit into its field counts for the
library. -/
def place (library reason : Nat) : Nat × Nat :=
  (library ||| reason / ErrorCode.reasonSpan, reason % ErrorCode.reasonSpan)

def load (s : ErrorStrings) (library reason : Nat) (bytes : List UInt8) : ErrorStrings :=
  ⟨(place library reason, bytes) :: s.entries⟩

def find? (s : ErrorStrings) (library reason : Nat) : Option (List UInt8) :=
  s.entries.lookup (library, reason)

/-- The text of a byte string: what stands before its first zero byte, if that is UTF-8. -/
def decode (bytes : List UInt8) : Option String :=
  String.fromUTF8? (bytes.takeWhile (· != 0)).toByteArray

def library (s : ErrorStrings) (c : ErrorCode) : Option String :=
  (s.find? c.libraryNumber 0).bind decode

def reason (s : ErrorStrings) (c : ErrorCode) : Option String :=
  match c.reasonNumber with
  | none => none
  | some r => ((s.find? c.libraryNumber r).or (s.find? 0 r)).bind decode

/-- the names of codes, as the table has them -/
def names (s : ErrorStrings) : ErrorNames := ⟨s.library, s.reason⟩

theorem place_of_lt (library : Nat) {reason : Nat} (h : reason < ErrorCode.reasonSpan) :
    place library reason = (library, reason) := by
  simp [place, Nat.div_eq_of_lt h, Nat.mod_eq_of_lt h]

theorem find?_load (s : ErrorStrings) (library reason l r : Nat) (bytes : List UInt8) :
    (s.load library reason bytes).find? l r =
      if (l, r) = place library reason then some bytes else s.find? l r := by
  rw [find?, load, List.lookup_cons]
  by_cases h : (l, r) = place library reason
  · rw [if_pos h, beq_iff_eq.2 h]
  · rw [if_neg h, beq_eq_false_iff_ne.2 h, find?]

end ErrorStrings

end CallbackLocks
