import CallbackLocks.Errors.Failure
import CallbackLocks.Errors.Strings
import CallbackLocks.Proofs.Text.Reading

/-!
# What the text of errors tells

The line of a stack of errors is read back code by code, without the names that were written into
it.  So it does not matter where the names are from, nor what a code says of its library.

* `ErrorNames.IsPlain`   no name has a mark in it
* `ErrorCode.ofText?`, `stackOfText?`   the code of one line, and the codes of the line of a stack
* `ErrorNames.ofText?_display`   **the line of an error tells its code**, whatever the names are
* `IsPlain.stackOfText?_displayStack`   **the line of a stack tells its codes**
* `ErrorStrings.isPlain_of_entries`, `isPlain_builtin`   tables of strings whose names are plain
* `ErrorNames.errors_of_text`   both for the line of a stack and for what a failure says of it
-/

namespace CallbackLocks

/-- No name of a library or a reason has a mark in it. -/
def ErrorNames.IsPlain (n : ErrorNames) : Prop :=
  ∀ (c : ErrorCode) (t : String), n.library c = some t ∨ n.reason c = some t →
    ¬ mark <:+: t.toList

/-! ## reading -/

/-- what the line of an error begins with -/
def lineStart : List Char := "error:".toList

/-- The code of a line: what its digits stand for, which end at a colon or with the line. -/
def ErrorCode.ofText? (cs : List Char) : Option ErrorCode :=
  if lineStart <+: cs then
    some ⟨.ofNat (Hex.number ((cs.drop lineStart.length).takeWhile (· != ':')))⟩
  else none

/-- The codes of the line of a stack. -/
def stackOfText? (text : String) : Option (List ErrorCode) :=
  if text = ErrorNames.emptyStack then some []
  else (pieces text.toList).mapM ErrorCode.ofText?

/-- what is said of a failure to start begins with -/
def refusalStart : List Char := "OpenSSL initialization failed: ".toList

/-- The codes in what is said of a failure to start. -/
def refusalOfText? (text : String) : Option (List ErrorCode) :=
  if refusalStart <+: text.toList then
    stackOfText? (String.ofList (text.toList.drop refusalStart.length))
  else none

/-! ## tables of strings -/

namespace ErrorStrings

variable {s : ErrorStrings}

/-- the bytes of a mark -/
def markBytes : List UInt8 := mark.flatMap String.utf8EncodeChar

/-- The bytes of a text are those of its characters. -/
theorem flatMap_of_decode {bytes : List UInt8} {t : String} (h : decode bytes = some t) :
    t.toList.flatMap String.utf8EncodeChar = bytes.takeWhile (· != 0) := by
  rw [decode, String.fromUTF8?] at h
  split at h
  · have hbytes : t.toByteArray = (bytes.takeWhile (· != 0)).toByteArray :=
      congrArg String.toByteArray (Option.some.inj h).symm
    have hencode : t.toList.utf8Encode = t.toByteArray := by
      rw [← String.toByteArray_ofList, String.ofList_toList]
    have hdata := congrArg (fun b => b.data.toList) (hencode.trans hbytes)
    simpa only [List.utf8Encode, List.toList_data_toByteArray] using hdata
  · exact absurd h (Option.some_ne_none t).symm

/-- A mark in a text is a mark in its bytes. -/
theorem markBytes_infix_of_decode {bytes : List UInt8} {t : String} (h : decode bytes = some t)
    (hm : mark <:+: t.toList) : markBytes <:+: bytes := by
  obtain ⟨a, b, hab⟩ := hm
  have hinfix : markBytes <:+: t.toList.flatMap String.utf8EncodeChar := by
    refine ⟨a.flatMap String.utf8EncodeChar, b.flatMap String.utf8EncodeChar, ?_⟩
    rw [markBytes, ← List.flatMap_append, ← List.flatMap_append, hab]
  rw [flatMap_of_decode h] at hinfix
  exact hinfix.trans (List.takeWhile_prefix _).isInfix

/-- A table is plain if no byte string in it has the bytes of a mark. -/
theorem isPlain_of_entries (h : ∀ e ∈ s.entries, ¬ markBytes <:+: e.2) : s.names.IsPlain := by
  have hfound : ∀ l r t, (s.find? l r).bind decode = some t → ¬ mark <:+: t.toList := by
    intro l r t ht hm
    obtain ⟨bytes, hb, ht⟩ := Option.bind_eq_some_iff.mp ht
    obtain ⟨es, es', he, -⟩ := List.lookup_eq_some_iff.mp hb
    exact h ((l, r), bytes) (he ▸ List.mem_append_right es List.mem_cons_self)
      (markBytes_infix_of_decode ht hm)
  intro c t ht
  rcases ht with ht | ht
  · exact hfound _ _ t ht
  · replace ht : s.reason c = some t := ht
    cases hr : c.reasonNumber with
    | none =>
      rw [reason, hr] at ht
      exact absurd ht (Option.some_ne_none t).symm
    | some r =>
      simp only [reason, hr] at ht
      -- the string is one of the library, or one that all libraries share
      cases hl : s.find? c.libraryNumber r with
      | none =>
        rw [hl, Option.none_or] at ht
        exact hfound 0 r t ht
      | some bytes =>
        rw [hl, Option.some_or, ← hl] at ht
        exact hfound c.libraryNumber r t ht

theorem not_markBytes_infix_builtin : ∀ e ∈ builtin.entries, ¬ markBytes <:+: e.2 := by
  decide +kernel

/-- The strings that are always there make a plain table. -/
theorem isPlain_builtin : builtin.names.IsPlain := isPlain_of_entries not_markBytes_infix_builtin

end ErrorStrings

namespace ErrorNames

variable {n : ErrorNames} {c : ErrorCode}

/-! ## the line of an error -/

/-- the characters of a name behind a colon -/
def segmentChars : Option String → List Char
  | none => []
  | some t => ':' :: t.toList

theorem toList_segment (t : Option String) : (segment t).toList = segmentChars t := by
  cases t with
  | none => rfl
  | some t => exact String.toList_append

/-- the digits of a code -/
def codeDigits (c : ErrorCode) : List Char := Hex.upperDigits 8 c.bits.toNat

theorem toList_display (n : ErrorNames) (c : ErrorCode) : (n.display c).toList =
    lineStart ++ (codeDigits c ++ (segmentChars (n.library c) ++ segmentChars (n.reason c))) := by
  simp only [display, Hex.upper, String.toList_append, toList_segment, String.toList_ofList,
    List.append_assoc]
  rfl

theorem not_mem_codeDigits {x : Char} (h : x = ':' ∨ x = ',') (c : ErrorCode) :
    x ∉ codeDigits c := by
  intro hx
  obtain ⟨d, hd, rfl⟩ := Hex.exists_of_mem_upperDigits hx
  obtain ⟨hcolon, hcomma⟩ := Hex.upperDigit_ne hd
  exact h.elim hcolon hcomma

theorem takeWhile_codeDigits (c : ErrorCode) (t t' : Option String) :
    (codeDigits c ++ (segmentChars t ++ segmentChars t')).takeWhile (· != ':') = codeDigits c := by
  have hdigits : ∀ x ∈ codeDigits c, (x != ':') = true := by
    intro x hx
    refine bne_iff_ne.mpr ?_
    rintro rfl
    exact not_mem_codeDigits (.inl rfl) c hx
  have hrest : (segmentChars t ++ segmentChars t').takeWhile (· != ':') = [] := by
    cases t with
    | none => cases t' <;> rfl
    | some t => rfl
  rw [List.takeWhile_append_of_pos hdigits, hrest, List.append_nil]

/-- **The line of an error tells its code**, whatever the names are. -/
theorem ofText?_display (n : ErrorNames) (c : ErrorCode) :
    ErrorCode.ofText? (n.display c).toList = some c := by
  rw [toList_display, ErrorCode.ofText?, if_pos (List.prefix_append _ _), List.drop_left,
    takeWhile_codeDigits, codeDigits, Hex.number_upperDigits, UInt64.ofNat_toNat]

/-! ## the line of a stack -/

theorem not_mark_infix_segment {l : List Char} (hl : ¬ mark <:+: l) {t : Option String}
    (ht : ∀ x, t = some x → ¬ mark <:+: x.toList) : ¬ mark <:+: l ++ segmentChars t := by
  cases t with
  | none =>
    show ¬ mark <:+: l ++ []
    rw [List.append_nil]
    exact hl
  | some x =>
    intro hm
    rcases pair_infix_of_append (by decide) (by decide) hm with hm | hm
    · exact hl hm
    · exact ht x rfl hm

/-- There is no mark within the line of an error. -/
theorem IsPlain.not_mark_infix_display (h : n.IsPlain) (c : ErrorCode) :
    ¬ mark <:+: (n.display c).toList := by
  have hcode : ¬ mark <:+: lineStart ++ codeDigits c := by
    refine not_mark_infix_of_not_mem fun hm => ?_
    rcases List.mem_append.mp hm with hm | hm
    · exact absurd hm (by decide)
    · exact not_mem_codeDigits (.inr rfl) c hm
  rw [toList_display, ← List.append_assoc, ← List.append_assoc]
  exact not_mark_infix_segment (not_mark_infix_segment hcode fun t ht => h c t (.inl ht))
    fun t ht => h c t (.inr ht)

theorem toList_displayStack_cons (n : ErrorNames) (c : ErrorCode) (cs : List ErrorCode) :
    (n.displayStack (c :: cs)).toList
      = mark.intercalate ((c :: cs).map fun c => (n.display c).toList) := by
  rw [displayStack_cons, String.toList_intercalate, List.map_cons, List.map_cons, List.map_map]
  rfl

/-- A stack that is not empty does not look like an empty one. -/
theorem displayStack_cons_ne (n : ErrorNames) (c : ErrorCode) (cs : List ErrorCode) :
    n.displayStack (c :: cs) ≠ emptyStack := by
  intro h
  have hstart : lineStart <+: (n.displayStack (c :: cs)).toList := by
    rw [toList_displayStack_cons, List.map_cons, toList_display]
    exact (List.prefix_append _ _).trans (prefix_intercalate _ _)
  rw [h] at hstart
  exact absurd hstart (by decide)

theorem mapM_ofText? (n : ErrorNames) (cs : List ErrorCode) :
    (cs.map fun c => (n.display c).toList).mapM ErrorCode.ofText? = some cs := by
  induction cs with
  | nil => rfl
  | cons c cs ih =>
    rw [List.map_cons, List.mapM_cons, ofText?_display, ih]
    rfl

/-- **The line of a stack tells its codes.** -/
theorem IsPlain.stackOfText?_displayStack (h : n.IsPlain) (cs : List ErrorCode) :
    stackOfText? (n.displayStack cs) = some cs := by
  cases cs with
  | nil => rfl
  | cons c cs =>
    have hpieces : pieces (n.displayStack (c :: cs)).toList
        = (c :: cs).map fun c => (n.display c).toList := by
      rw [toList_displayStack_cons]
      refine pieces_intercalate (List.cons_ne_nil _ _) fun e he => ?_
      obtain ⟨c', -, rfl⟩ := List.mem_map.mp he
      exact h.not_mark_infix_display c'
    rw [stackOfText?, if_neg (displayStack_cons_ne n c cs), hpieces]
    exact mapM_ofText? n (c :: cs)

theorem toList_message_refused (n : ErrorNames) (cs : List ErrorCode) :
    (Failure.message n (.refused cs)).toList = refusalStart ++ (n.displayStack cs).toList :=
  String.toList_append

/-- **What is said of a failure to start tells its codes.** -/
theorem IsPlain.refusalOfText?_message (h : n.IsPlain) (cs : List ErrorCode) :
    refusalOfText? (Failure.message n (.refused cs)) = some cs := by
  rw [refusalOfText?, toList_message_refused, if_pos (List.prefix_append _ _), List.drop_left,
    String.ofList_toList]
  exact h.stackOfText?_displayStack cs

/-- **The text of errors tells which errors they are.**  Whatever names there are for libraries and
reasons, if none has a comma and a space side by side, then the line of a stack is read back as the
codes of the stack, the oldest first, and so is what is said of a failure to start.  So stacks with
the same line are the same, and so are the stacks of failures of which the same is said. -/
theorem errors_of_text (h : n.IsPlain) :
    (∀ cs, stackOfText? (n.displayStack cs) = some cs) ∧
    (∀ a b, n.displayStack a = n.displayStack b → a = b) ∧
    (∀ cs, refusalOfText? (Failure.message n (.refused cs)) = some cs) ∧
    ∀ a b, Failure.message n (.refused a) = Failure.message n (.refused b) → a = b := by
  refine ⟨h.stackOfText?_displayStack, fun a b hab => ?_, h.refusalOfText?_message,
    fun a b hab => ?_⟩
  · have ha := h.stackOfText?_displayStack a
    rw [hab, h.stackOfText?_displayStack b] at ha
    exact (Option.some.inj ha).symm
  · have ha := h.refusalOfText?_message a
    rw [hab, h.refusalOfText?_message b] at ha
    exact (Option.some.inj ha).symm

/-- Two strings more than there always are; the newer is no text. -/
def loaded : ErrorStrings :=
  (ErrorStrings.builtin.load 36 101 "a: b,".toUTF8.toList).load 20 0 [255]

/-- A string may have colons in it and end in a comma, and a code may have more than eight digits.
Strings that are no text read as missing. -/
theorem errors_of_text_of_loaded : loaded.names.IsPlain ∧
    stackOfText? "error:12000065:random number generator:a: b,, error:10000000086, error:10A00000B"
      = some [⟨0x12000065⟩, ⟨0x10000000086⟩, ⟨0x10A00000B⟩] := by
  have hplain : loaded.names.IsPlain :=
    ErrorStrings.isPlain_of_entries <| List.forall_mem_cons.mpr
      ⟨by decide +kernel, List.forall_mem_cons.mpr
        ⟨by decide +kernel, ErrorStrings.not_markBytes_infix_builtin⟩⟩
  have hline : loaded.names.displayStack [⟨0x12000065⟩, ⟨0x10000000086⟩, ⟨0x10A00000B⟩] =
      "error:12000065:random number generator:a: b,, error:10000000086, error:10A00000B" := by
    decide +kernel
  exact ⟨hplain, hline ▸ (errors_of_text hplain).1 _⟩

/-- With marks in its strings a line does not tell where an error ends. -/
example : (ErrorStrings.mk [((36, 101), "a, error:00000000".toUTF8.toList)]).names.displayStack
      [⟨0x12000065⟩]
    = (ErrorStrings.mk [((36, 101), "a".toUTF8.toList)]).names.displayStack
      [⟨0x12000065⟩, ⟨0⟩] := by
  decide +kernel

end ErrorNames

end CallbackLocks
