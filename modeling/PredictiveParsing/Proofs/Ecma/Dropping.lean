import PredictiveParsing.Proofs.Ecma.Trivia

/-!
# Passing over one piece at a time

What is passed over at the front of a text is dropped piece by piece: a blank, a line comment up to
the line feed, or a block comment up to the first asterisk and slash behind its start. A block
comment that is never closed is no piece.

* `afterPiece`: what is left behind the piece that comes first.
* `dropPieces`, `dropPieces_eq`: what is left behind all pieces is what is left behind all trivia.
* `skipLength_dropPieces`: as much is passed over as the pieces hold.
-/

namespace PredictiveParsing.Ecma

open Text

/-! ## Pieces -/

/-- What is left behind the blank, the line comment or the closed block comment that comes first. -/
def afterPiece : Text → Option Text
  | '/' :: '/' :: rest => some (rest.dropWhile (· != '\n'))
  | '/' :: '*' :: rest => closeRest rest
  | c :: rest => if c ∈ [' ', '\t', '\r', '\n'] then some rest else none
  | [] => none

theorem length_lt_of_afterPiece {text rest : Text} (h : afterPiece text = some rest) :
    rest.length < text.length := by
  unfold afterPiece at h
  split at h
  · rename_i after
    have hle : (after.dropWhile (· != '\n')).length ≤ after.length :=
      (List.dropWhile_sublist _).length_le
    rw [← Option.some.inj h, List.length_cons, List.length_cons]
    omega
  · obtain ⟨body, rfl, -⟩ := exists_of_closeRest h
    simp only [List.length_cons, List.length_append]
    omega
  · split at h
    · rw [← Option.some.inj h]
      exact Nat.lt_succ_self _
    · cases h
  · cases h

/-- What is left behind all pieces that come first. -/
def dropPieces (text : Text) : Text :=
  match _h : afterPiece text with
  | some rest => dropPieces rest
  | none => text
termination_by text.length
decreasing_by exact length_lt_of_afterPiece _h

/-! ## Pieces and trivia -/

theorem notNewline_mem_eq : CharClass.notNewline.mem = (· != '\n') := by
  funext c
  rw [Bool.eq_iff_iff, mem_notNewline, bne_iff_ne]

theorem afterTrivia_of_afterPiece {text rest : Text} (h : afterPiece text = some rest) :
    afterTrivia text = afterTrivia rest := by
  unfold afterPiece at h
  split at h
  · rw [afterTrivia_line, notNewline_mem_eq, Option.some.inj h]
  · obtain ⟨body, rfl, hbody⟩ := exists_of_closeRest h
    exact afterTrivia_block hbody rest
  · split at h
    · rename_i hblank
      rw [afterTrivia_blank (mem_blank_iff_mem.2 hblank), Option.some.inj h]
    · cases h
  · cases h

theorem solid_of_afterPiece {text : Text} (h : afterPiece text = none) : Solid text := by
  unfold afterPiece at h
  split at h
  · cases h
  · rename_i rest
    exact ⟨rfl, by simp [List.cons_prefix_cons], fun _ => closeRest_eq_none_iff.1 h⟩
  · rename_i c rest hline hblock
    split at h
    · cases h
    · rename_i hblank
      refine ⟨Bool.eq_false_iff.2 (mt mem_blank_iff_mem.1 hblank), ?_, ?_⟩
      · rintro ⟨more, hmore⟩
        cases hmore
        exact hline more rfl rfl
      · rintro ⟨more, hmore⟩
        cases hmore
        exact absurd rfl (hblock more rfl)
  · trivial

theorem dropPieces_eq (text : Text) : dropPieces text = afterTrivia text := by
  fun_induction dropPieces text with
  | case1 text rest h ih => rw [ih, afterTrivia_of_afterPiece h]
  | case2 text h => exact (solid_iff.1 (solid_of_afterPiece h)).symm

/-- Pieces are dropped until none comes next, and what was dropped is what the lexicon passes over
at the front of a text. -/
theorem skipLength_dropPieces (text : Text) :
    ∃ gap, text = gap ++ dropPieces text ∧ lexicon.skipLength text = byteLength gap := by
  obtain ⟨gap, hgap⟩ := exists_append_afterTrivia text
  refine ⟨gap, by rwa [dropPieces_eq], ?_⟩
  have hlen := congrArg byteLength hgap
  rw [byteLength_append] at hlen
  rw [skipLength_lexicon]
  omega

/-- The asterisk that opens a block comment does not close it. -/
example : lexicon.skipLength "/**/ /*/".toList = 5 := by decide +kernel

end PredictiveParsing.Ecma
