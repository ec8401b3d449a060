/-!
# Text and byte offsets

A text is the list of its characters. Offsets into it count bytes of its UTF-8 form, so that an
offset may fall inside a character; such an offset cuts nothing off.

* `byteLength_append`: lengths add up.
* `dropBytes?_byteLength_append`, `takeBytes?_byteLength_append`: cutting at the end of a first
  part gives the parts back.
* `slice_append`: the slice of a middle part is that part.
-/

namespace PredictiveParsing

/-- A text is the list of its characters. -/
abbrev Text := List Char

namespace Text

/-- The number of bytes of a text in UTF-8. -/
def byteLength : Text → Nat
  | [] => 0
  | c :: rest => c.utf8Size + byteLength rest

/-- What follows the first `n` bytes; nothing if `n` is inside a character or past the end. -/
def dropBytes? : Text → Nat → Option Text
  | text, 0 => some text
  | [], _ + 1 => none
  | c :: rest, n + 1 =>
    if c.utf8Size ≤ n + 1 then dropBytes? rest (n + 1 - c.utf8Size) else none

/-- The first `n` bytes; nothing if `n` is inside a character or past the end. -/
def takeBytes? : Text → Nat → Option Text
  | _, 0 => some []
  | [], _ + 1 => none
  | c :: rest, n + 1 =>
    if c.utf8Size ≤ n + 1 then (takeBytes? rest (n + 1 - c.utf8Size)).map (c :: ·) else none

/-- The text between two offsets; nothing unless both are character boundaries in order. -/
def slice (text : Text) (start stop : Nat) : Option Text :=
  if start ≤ stop then
    (dropBytes? text start).bind fun rest => takeBytes? rest (stop - start)
  else none

/-- An offset between two characters of a text, or at one of its ends. -/
def IsBoundary (text : Text) (offset : Nat) : Prop :=
  ∃ before after, text = before ++ after ∧ offset = byteLength before

/-! ## Lengths and cuts -/

theorem utf8Size_pos (c : Char) : 0 < c.utf8Size := c.utf8Size_pos

@[simp] theorem byteLength_nil : byteLength [] = 0 := rfl

@[simp] theorem byteLength_cons (c : Char) (rest : Text) :
    byteLength (c :: rest) = c.utf8Size + byteLength rest := rfl

@[simp] theorem byteLength_append (a b : Text) :
    byteLength (a ++ b) = byteLength a + byteLength b := by
  induction a with
  | nil => simp
  | cons c a ih => simp [ih, Nat.add_assoc]

theorem byteLength_replicate (n : Nat) (c : Char) :
    byteLength (List.replicate n c) = n * c.utf8Size := by
  induction n with
  | zero => simp
  | succ n ih => rw [List.replicate_succ, byteLength_cons, ih, Nat.succ_mul, Nat.add_comm]

theorem byteLength_eq_zero_iff {text : Text} : byteLength text = 0 ↔ text = [] := by
  cases text with
  | nil => simp
  | cons c rest =>
    have := utf8Size_pos c
    simp
    omega

theorem length_le_byteLength (text : Text) : text.length ≤ byteLength text := by
  induction text with
  | nil => exact Nat.le_refl 0
  | cons c rest ih =>
    have := utf8Size_pos c
    rw [List.length_cons, byteLength_cons]
    omega

@[simp] theorem dropBytes?_zero (text : Text) : dropBytes? text 0 = some text := by
  cases text <;> rfl

@[simp] theorem takeBytes?_zero (text : Text) : takeBytes? text 0 = some [] := by
  cases text <;> rfl

theorem dropBytes?_cons_add (c : Char) (rest : Text) (n : Nat) :
    dropBytes? (c :: rest) (c.utf8Size + n) = dropBytes? rest n := by
  obtain ⟨m, hm⟩ : ∃ m, c.utf8Size + n = m + 1 :=
    ⟨c.utf8Size + n - 1, by have := utf8Size_pos c; omega⟩
  rw [hm, dropBytes?, if_pos (by omega)]
  congr 1
  omega

theorem takeBytes?_cons_add (c : Char) (rest : Text) (n : Nat) :
    takeBytes? (c :: rest) (c.utf8Size + n) = (takeBytes? rest n).map (c :: ·) := by
  obtain ⟨m, hm⟩ : ∃ m, c.utf8Size + n = m + 1 :=
    ⟨c.utf8Size + n - 1, by have := utf8Size_pos c; omega⟩
  rw [hm, takeBytes?, if_pos (by omega)]
  congr 2
  omega

@[simp] theorem dropBytes?_byteLength_append (a b : Text) :
    dropBytes? (a ++ b) (byteLength a) = some b := by
  induction a with
  | nil => simp
  | cons c a ih => rw [List.cons_append, byteLength_cons, dropBytes?_cons_add, ih]

@[simp] theorem takeBytes?_byteLength_append (a b : Text) :
    takeBytes? (a ++ b) (byteLength a) = some a := by
  induction a with
  | nil => simp
  | cons c a ih => rw [List.cons_append, byteLength_cons, takeBytes?_cons_add, ih]; rfl

/-- More bytes than there are cannot be taken. -/
theorem takeBytes?_eq_none {text : Text} {n : Nat} (h : byteLength text < n) :
    takeBytes? text n = none := by
  obtain ⟨m, rfl⟩ := Nat.exists_eq_succ_of_ne_zero (Nat.ne_zero_of_lt h)
  induction text generalizing m with
  | nil => rfl
  | cons c text ih =>
    rw [byteLength_cons] at h
    rw [takeBytes?]
    split
    · obtain ⟨k, hk⟩ := Nat.exists_eq_succ_of_ne_zero (n := m + 1 - c.utf8Size) (by omega)
      rw [hk, ih k (by omega)]
      rfl
    · rfl

/-- A cut drops exactly the bytes it is asked to drop. -/
theorem eq_append_of_dropBytes? {text rest : Text} {n : Nat} (h : dropBytes? text n = some rest) :
    ∃ before, text = before ++ rest ∧ byteLength before = n := by
  induction text generalizing n with
  | nil =>
    cases n with
    | zero => exact ⟨[], by simpa using h, rfl⟩
    | succ n => simp [dropBytes?] at h
  | cons c text ih =>
    cases n with
    | zero => exact ⟨[], by simpa using h, rfl⟩
    | succ n =>
      rw [dropBytes?] at h
      split at h
      · obtain ⟨before, htext, hlen⟩ := ih h
        exact ⟨c :: before, by simp [htext], by simp [hlen]; omega⟩
      · simp at h

@[simp] theorem slice_append (a b c : Text) :
    slice (a ++ b ++ c) (byteLength a) (byteLength a + byteLength b) = some b := by
  simp [slice, List.append_assoc]

end Text

end PredictiveParsing
