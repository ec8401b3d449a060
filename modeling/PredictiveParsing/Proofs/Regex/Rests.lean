import PredictiveParsing.Regex.ThreadEnds

/-!
# What a match leaves of a text

A matcher that finds something cuts the text in three: what it passes over, the match, and the
rest (`find_split`). This holds for every matcher, since threads only move on character by
character.

Code that asks for no condition matches by the text that follows alone, so its matches are
given by what they leave (`Code.rests`), most preferred first. Each constructor has an equation
for it, and an anchored matcher of solid code finds the first (`find_anchored`).

* `head?_rests_loop_chars`: a greedy loop over a class leaves what follows the longest run.
* `head?_rests_seq_of_ne_nil`: in a sequence whose second part cannot fail, both parts match as
  they prefer.
-/

namespace PredictiveParsing

open Text

namespace Matcher

/-! ## Matches are pieces of the text -/

theorem follow_split (threads : List Thread) {best : Option Cursor} {passed : Nat}
    {before : Option Char} {text : Text} {q : Cursor}
    (h : follow threads best passed before text = some q) :
    best = some q ∨ ∃ mid, text = mid ++ q.rest ∧ q.passed = passed + byteLength mid := by
  induction text generalizing threads best passed before with
  | nil =>
    rw [follow] at h
    split at h
    · cases h
      exact Or.inr ⟨[], rfl, rfl⟩
    · exact Or.inl h
  | cons c rest ih =>
    have hhere : (if Thread.anyMatch threads then some ⟨passed, before, c :: rest⟩ else best) =
        some q → best = some q ∨
          ∃ mid, c :: rest = mid ++ q.rest ∧ q.passed = passed + byteLength mid := by
      intro hq
      split at hq
      · cases hq
        exact Or.inr ⟨[], rfl, rfl⟩
      · exact Or.inl hq
    rw [follow] at h
    split at h
    · exact hhere h
    · rcases ih _ h with hb | ⟨mid, hrest, hpassed⟩
      · exact hhere hb
      · refine Or.inr ⟨c :: mid, by rw [hrest]; rfl, ?_⟩
        rw [hpassed]
        simp only [Cursor.past, byteLength_cons]
        omega

theorem matchFrom_split {m : Matcher} {p q : Cursor} (h : m.matchFrom p = some q) :
    ∃ mid, p.rest = mid ++ q.rest ∧ q.passed = p.passed + byteLength mid := by
  rcases follow_split _ h with hb | hmid
  · cases hb
  · exact hmid

theorem findFrom_split {m : Matcher} {passed : Nat} {before : Option Char} {text : Text}
    {f : Match} (h : m.findFrom passed before text = some f) :
    ∃ pre mid post, text = pre ++ mid ++ post ∧ f.start = passed + byteLength pre ∧
      f.stop = passed + byteLength pre + byteLength mid := by
  induction text generalizing passed before with
  | nil =>
    rw [findFrom, Option.map_eq_some_iff] at h
    obtain ⟨q, hq, rfl⟩ := h
    obtain ⟨mid, hmid, hpassed⟩ := matchFrom_split hq
    exact ⟨[], mid, q.rest, hmid, rfl, hpassed⟩
  | cons c rest ih =>
    rw [findFrom] at h
    split at h
    · rename_i q hq
      cases h
      obtain ⟨mid, hmid, hpassed⟩ := matchFrom_split hq
      exact ⟨[], mid, q.rest, hmid, rfl, hpassed⟩
    · split at h
      · cases h
      · obtain ⟨pre, mid, post, htext, hstart, hstop⟩ := ih h
        refine ⟨c :: pre, mid, post, by rw [htext]; rfl, ?_, ?_⟩
        · rw [hstart, byteLength_cons]
          omega
        · rw [hstop, byteLength_cons]
          omega

/-- A match is a piece of the text, between two characters at both ends. -/
theorem find_split {m : Matcher} {text : Text} {f : Match} (h : m.find text = some f) :
    ∃ pre mid post, text = pre ++ mid ++ post ∧ f.start = byteLength pre ∧
      f.stop = byteLength pre + byteLength mid := by
  obtain ⟨pre, mid, post, htext, hstart, hstop⟩ := findFrom_split h
  exact ⟨pre, mid, post, htext, by omega, by omega⟩

end Matcher

namespace Code

/-! ## Rests of code without conditions -/

/-- Whether no condition on a place is asked for. -/
def isPlain : Code → Bool
  | .look _ => false
  | .seq r s | .fork _ r s => r.isPlain && s.isPlain
  | .loop _ r _ => r.isPlain
  | _ => true

/-- What the matches at the front of a text leave of it, most preferred first. -/
def rests (r : Code) (text : Text) : List Text :=
  (r.ends ⟨0, none, text⟩).map (·.rest)

theorem map_flatMap_congr {f g : Cursor → List Cursor}
    (hfg : ∀ a b : Cursor, a.rest = b.rest → (f a).map (·.rest) = (g b).map (·.rest))
    {l l' : List Cursor} (h : l.map (·.rest) = l'.map (·.rest)) :
    (l.flatMap f).map (·.rest) = (l'.flatMap g).map (·.rest) := by
  induction l generalizing l' with
  | nil =>
    cases l' with
    | nil => rfl
    | cons b l' => simp at h
  | cons a l ih =>
    cases l' with
    | nil => simp at h
    | cons b l' =>
      simp only [List.map_cons, List.cons.injEq] at h
      rw [List.flatMap_cons, List.flatMap_cons, List.map_append, List.map_append,
        hfg a b h.1, ih h.2]

theorem map_iterate_congr {round : Cursor → List Cursor} (greedy : Bool)
    (hround : ∀ a b : Cursor, a.rest = b.rest →
      (round a).map (·.rest) = (round b).map (·.rest))
    (n : Nat) {p q : Cursor} (h : p.rest = q.rest) :
    (iterate round greedy n p).map (·.rest) = (iterate round greedy n q).map (·.rest) := by
  induction n generalizing p q with
  | zero => simp [iterate, h]
  | succ n ih =>
    have hmore := map_flatMap_congr
      (f := fun next =>
        if next.rest.length < p.rest.length then iterate round greedy n next else [])
      (g := fun next =>
        if next.rest.length < q.rest.length then iterate round greedy n next else [])
      (fun a b hab => by
        rw [h, hab]
        split
        · exact ih hab
        · rfl) (hround p q h)
    rw [iterate, iterate]
    cases greedy with
    | true =>
      simp only [if_true, List.map_append, List.map_cons, List.map_nil]
      rw [hmore, h]
    | false =>
      simp only [Bool.false_eq_true, if_false, List.map_cons]
      rw [hmore, h]

/-- Where no condition is asked for, the text before a place does not count. -/
theorem map_rest_ends_congr {r : Code} (hr : r.isPlain = true) {p q : Cursor}
    (h : p.rest = q.rest) : (r.ends p).map (·.rest) = (r.ends q).map (·.rest) := by
  induction r generalizing p q with
  | empty => simp [ends, h]
  | chars _ k =>
    simp only [ends, h]
    split
    · rfl
    · split <;> rfl
  | look a => simp [isPlain] at hr
  | seq r s ihr ihs =>
    simp only [isPlain, Bool.and_eq_true] at hr
    exact map_flatMap_congr (fun a b hab => ihs hr.2 hab) (ihr hr.1 h)
  | fork _ r s ihr ihs =>
    simp only [isPlain, Bool.and_eq_true] at hr
    simp only [ends, List.map_append, ihr hr.1 h, ihs hr.2 h]
  | loop _ r greedy ih =>
    simp only [ends, h]
    exact map_iterate_congr greedy (fun a b hab => ih hr hab) _ h

theorem map_rest_ends {r : Code} (hr : r.isPlain = true) (p : Cursor) :
    (r.ends p).map (·.rest) = r.rests p.rest :=
  map_rest_ends_congr hr rfl

@[simp] theorem rests_empty (text : Text) : Code.empty.rests text = [text] := rfl

@[simp] theorem rests_chars_nil (label : Nat) (k : CharClass) :
    (Code.chars label k).rests [] = [] := rfl

@[simp] theorem rests_chars_cons (label : Nat) (k : CharClass) (c : Char) (rest : Text) :
    (Code.chars label k).rests (c :: rest) = if k.mem c then [rest] else [] := by
  simp only [rests, ends]
  split <;> rfl

theorem rests_seq (r : Code) {s : Code} (hs : s.isPlain = true) (text : Text) :
    (Code.seq r s).rests text = (r.rests text).flatMap s.rests := by
  simp only [rests, ends, List.map_flatMap, List.flatMap_map]
  exact flatMap_congr_of_mem fun q _ => map_rest_ends hs q

theorem rests_fork (label : Nat) (r s : Code) (text : Text) :
    (Code.fork label r s).rests text = r.rests text ++ s.rests text := by
  simp [rests, ends]

/-- A loop goes round once more or ends, in the order that it prefers. -/
theorem rests_loop {label : Nat} {r : Code} {greedy : Bool} (hc : r.consumes = true)
    (hr : r.isPlain = true) (text : Text) :
    (Code.loop label r greedy).rests text =
      if greedy then (r.rests text).flatMap (Code.loop label r greedy).rests ++ [text]
      else text :: (r.rests text).flatMap (Code.loop label r greedy).rests := by
  have hround : ((r.ends ⟨0, none, text⟩).flatMap (Code.loop label r greedy).ends).map (·.rest) =
      (r.rests text).flatMap (Code.loop label r greedy).rests := by
    have h := rests_seq r (s := Code.loop label r greedy) hr text
    simpa only [rests, ends] using h
  rw [rests, ends_loop hc]
  cases greedy with
  | true => simp only [if_true, List.map_append, hround, List.map_cons, List.map_nil]
  | false => simp only [Bool.false_eq_true, if_false, List.map_cons, hround]

/-- What is left behind a character is shorter. -/
theorem length_lt_of_mem_rests {r : Code} (hc : r.consumes = true) {text rest : Text}
    (h : rest ∈ r.rests text) : rest.length < text.length := by
  obtain ⟨q, hq, rfl⟩ := List.mem_map.1 h
  exact length_lt_of_mem_ends hc hq

/-! ## Rests are ends of the text -/

theorem isSuffix_of_mem_ends {r : Code} {p q : Cursor} (h : q ∈ r.ends p) : q.rest <:+ p.rest := by
  refine relates_of_mem_ends (T := fun p q => q.rest <:+ p.rest)
    (fun p => List.suffix_rfl) (fun h h' => h'.trans h) ?_ h
  intro k _ p c rest hrest _
  rw [hrest]
  exact List.suffix_cons c rest

theorem exists_append_of_mem_rests {r : Code} {text rest : Text} (h : rest ∈ r.rests text) :
    ∃ word, text = word ++ rest := by
  obtain ⟨q, hq, rfl⟩ := List.mem_map.1 h
  obtain ⟨word, hword⟩ := isSuffix_of_mem_ends hq
  exact ⟨word, hword.symm⟩

/-! ## Rests that are preferred -/

theorem head?_rests_seq (r : Code) {s : Code} (hs : s.isPlain = true) (text : Text) :
    ((Code.seq r s).rests text).head? =
      (r.rests text).findSome? fun rest => (s.rests rest).head? := by
  rw [rests_seq r hs, List.head?_flatMap]

/-- If the second part of a sequence cannot fail, the first part is not asked again. -/
theorem head?_rests_seq_of_ne_nil (r : Code) {s : Code} (hs : s.isPlain = true) {text : Text}
    (h : ∀ rest ∈ r.rests text, s.rests rest ≠ []) :
    ((Code.seq r s).rests text).head? =
      (r.rests text).head?.bind fun rest => (s.rests rest).head? := by
  rw [rests_seq r hs]
  cases hl : r.rests text with
  | nil => rfl
  | cons rest others =>
    have hne : s.rests rest ≠ [] := h rest (by rw [hl]; exact List.mem_cons_self)
    obtain ⟨first, more, hfirst⟩ := List.exists_cons_of_ne_nil hne
    simp [hfirst]

theorem rests_loop_ne_nil {label : Nat} {r : Code} {greedy : Bool} (hc : r.consumes = true)
    (hr : r.isPlain = true) (text : Text) : (Code.loop label r greedy).rests text ≠ [] := by
  rw [rests_loop hc hr]
  cases greedy <;> simp

/-- A greedy loop takes what one round prefers and goes on from there. -/
theorem head?_rests_loop {label : Nat} {r : Code} (hc : r.consumes = true)
    (hr : r.isPlain = true) (text : Text) :
    ((Code.loop label r true).rests text).head? =
      match (r.rests text).head? with
      | none => some text
      | some rest => ((Code.loop label r true).rests rest).head? := by
  rw [rests_loop hc hr]
  cases hl : r.rests text with
  | nil => rfl
  | cons rest others =>
    have hne : (Code.loop label r true).rests rest ≠ [] := rests_loop_ne_nil hc hr rest
    obtain ⟨first, more, hfirst⟩ := List.exists_cons_of_ne_nil hne
    simp [hfirst]

/-- A greedy loop over a class takes the longest run. -/
theorem head?_rests_loop_chars (label label' : Nat) (k : CharClass) (text : Text) :
    ((Code.loop label (.chars label' k) true).rests text).head? = some (text.dropWhile k.mem) := by
  induction text with
  | nil => rw [head?_rests_loop rfl rfl]; rfl
  | cons c rest ih =>
    rw [head?_rests_loop rfl rfl, rests_chars_cons]
    by_cases h : k.mem c = true
    · rw [if_pos h, List.dropWhile_cons_of_pos h]
      exact ih
    · rw [if_neg h, List.dropWhile_cons_of_neg h]
      rfl

end Code

namespace Matcher

/-! ## Anchored matchers -/

/-- What a matcher that is tied to the start of the text finds is a match from there. -/
theorem exists_of_find {m : Matcher} (hm : m.anchored = true) {text : Text} {found : Match}
    (h : m.find text = some found) :
    ∃ q, m.matchFrom ⟨0, none, text⟩ = some q ∧ found = ⟨0, q.passed⟩ := by
  rw [find] at h
  cases text with
  | nil =>
    rw [findFrom, Option.map_eq_some_iff] at h
    obtain ⟨q, hq, rfl⟩ := h
    exact ⟨q, hq, rfl⟩
  | cons c rest =>
    rw [findFrom] at h
    split at h
    · rename_i q hq
      cases h
      exact ⟨q, hq, rfl⟩
    · rw [if_pos hm] at h
      cases h

/-- A matcher of solid code that is tied to the start of the text finds what the code prefers. -/
theorem find_anchored {r : Code} (hsolid : r.isSolid = true) (text : Text) :
    (Matcher.mk (.seq (.look .textStart) r) true).find text =
      (r.rests text).head?.map fun rest => ⟨0, byteLength text - byteLength rest⟩ := by
  have hfind : (Matcher.mk (.seq (.look .textStart) r) true).find text =
      ((Matcher.mk (.seq (.look .textStart) r) true).matchFrom ⟨0, none, text⟩).map
        fun q => ⟨0, q.passed⟩ := by
    rw [find]
    cases text with
    | nil => rw [findFrom]
    | cons c rest =>
      rw [findFrom]
      cases (Matcher.mk (.seq (.look .textStart) r) true).matchFrom ⟨0, none, c :: rest⟩ <;> rfl
  have hends : (Code.seq (.look .textStart) r).ends ⟨0, none, text⟩ = r.ends ⟨0, none, text⟩ := by
    simp [Code.ends, Assertion.holds]
  have hhead : (Matcher.mk (.seq (.look .textStart) r) true).matchFrom ⟨0, none, text⟩ =
      (r.ends ⟨0, none, text⟩).head? := by
    rw [matchFrom_eq_head? (by simpa [Code.isSolid] using hsolid), hends]
  have hpassed : ∀ q, (Matcher.mk (.seq (.look .textStart) r) true).matchFrom ⟨0, none, text⟩ =
      some q → q.passed = byteLength text - byteLength q.rest := by
    intro q hq
    obtain ⟨mid, hmid, hlen⟩ := matchFrom_split hq
    simp only at hmid hlen
    rw [hmid, byteLength_append, hlen]
    omega
  rw [hfind, Code.rests, List.head?_map, Option.map_map, ← hhead]
  cases hq : (Matcher.mk (.seq (.look .textStart) r) true).matchFrom ⟨0, none, text⟩ with
  | none => rfl
  | some q => simp [hpassed q hq]

end Matcher

end PredictiveParsing
