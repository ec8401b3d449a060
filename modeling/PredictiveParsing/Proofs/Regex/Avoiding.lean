import PredictiveParsing.Proofs.Regex.Rests

/-!
# Characters that no match takes

A match reads each of its characters by a class of the code. A character that is in none of the
classes is thus in none of the matches, whatever the code does between its characters.

* `Code.avoids`: the code has no class with a character.
* `Matcher.not_mem_of_find`: what a matcher of such code finds does not hold the character.
-/

namespace PredictiveParsing

open Text

namespace Code

/-- Whether no class of the code has a character. -/
def avoids (r : Code) (c : Char) : Bool := r.classes.all fun k => !k.mem c

/-- From one cursor it goes on to another over a text without a character. -/
def Clears (c : Char) (p q : Cursor) : Prop := ∃ word, p.rest = word ++ q.rest ∧ c ∉ word

/-- A match of code that avoids a character does not read it. -/
theorem clears_of_mem_ends {r : Code} {c : Char} (hr : r.avoids c = true) {p q : Cursor}
    (h : q ∈ r.ends p) : Clears c p q := by
  refine relates_of_mem_ends (fun p => ⟨[], rfl, List.not_mem_nil⟩) ?_ ?_ h
  · rintro p q u ⟨word, hword, hc⟩ ⟨word', hword', hc'⟩
    refine ⟨word ++ word', by rw [hword, hword', List.append_assoc], ?_⟩
    rw [List.mem_append, not_or]
    exact ⟨hc, hc'⟩
  · intro k hk p d rest hrest hd
    have hc := List.all_eq_true.1 hr k hk
    refine ⟨[d], hrest, fun hmem => ?_⟩
    rw [List.mem_singleton.1 hmem, hd] at hc
    cases hc

end Code

/-- What a matcher of solid code that is tied to the start of the text finds holds no character that
the code avoids. -/
theorem Matcher.not_mem_of_find {m : Matcher} {c : Char} (hanchored : m.anchored = true)
    (hsolid : m.code.isSolid = true) (havoids : m.code.avoids c = true) {text : Text}
    {found : Match} (h : m.find text = some found) :
    ∃ word rest, text = word ++ rest ∧ found.stop = byteLength word ∧ c ∉ word := by
  obtain ⟨q, hq, rfl⟩ := exists_of_find hanchored h
  obtain ⟨mid, hmid, hpassed⟩ := matchFrom_split hq
  rw [matchFrom_eq_head? hsolid] at hq
  obtain ⟨word, hword, hc⟩ := Code.clears_of_mem_ends havoids (List.mem_of_mem_head? hq)
  obtain rfl : mid = word := List.append_cancel_right (hmid.symm.trans hword)
  exact ⟨mid, q.rest, hmid, by rw [hpassed, Nat.zero_add], hc⟩

end PredictiveParsing
