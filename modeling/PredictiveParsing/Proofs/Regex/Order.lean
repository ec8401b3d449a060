import PredictiveParsing.Proofs.Regex.Rests
import PredictiveParsing.Proofs.Regex.Written
import PredictiveParsing.Regex.Engine

/-!
# Matches in order of preference

`Regex.ends` lists the places where a match that starts at a cursor can end, the most preferred
first, as the expression is written: an earlier branch comes before a later one, one more round
before none in a greedy repetition and after it in a lazy one. The leftmost match is the most
preferred one at the first place where there is one at all.

A matcher need not follow this order everywhere, since expressions are reduced before they are
compiled. `Regex.LeftmostFirst` says of a pattern that its matcher does.

* `reaches_of_mem_ends`: a match takes a piece of the text.
* `dependsOnRest_ends`: without conditions, the text before a place does not count.
* `mem_ends_of_empty`: without conditions, an empty match in one place is one in every place.
* `head?_anyNumber`: a greedy repetition goes on with what one round prefers.
-/

namespace PredictiveParsing

open Text

namespace Regex

/-- The end of a text that stands at a cursor. -/
def literalEnds : Text → Cursor → List Cursor
  | [], p => [p]
  | c :: text, p =>
    match p.rest with
    | [] => []
    | d :: rest => if d = c then literalEnds text (p.past d rest) else []

/-- The ends of exactly a number of rounds. -/
def times (round : Cursor → List Cursor) : Nat → Cursor → List Cursor
  | 0, p => [p]
  | n + 1, p => (round p).flatMap (times round n)

/-- The ends of at most a number of rounds. -/
def atMost (round : Cursor → List Cursor) (greedy : Bool) : Nat → Cursor → List Cursor
  | 0, p => [p]
  | n + 1, p =>
    let more := (round p).flatMap (atMost round greedy n)
    if greedy then more ++ [p] else p :: more

/-- The ends of any number of rounds, of which no more than a number move on. A round that moves
nowhere is the last one. -/
def anyNumber (round : Cursor → List Cursor) (greedy : Bool) : Nat → Cursor → List Cursor
  | 0, p => [p]
  | n + 1, p =>
    let more := (round p).flatMap fun next =>
      if next.rest.length < p.rest.length then anyNumber round greedy n next else [next]
    if greedy then more ++ [p] else p :: more

/-- The ends of the rounds behind those that there have to be. -/
def optionalEnds (round : Cursor → List Cursor) (low : Nat) (high : Option Nat) (greedy : Bool)
    (p : Cursor) : List Cursor :=
  match high with
  | some high => atMost round greedy (high - low) p
  | none => anyNumber round greedy p.rest.length p

/-- The ends of the matches that start at a cursor, most preferred first. -/
def ends : Regex → Cursor → List Cursor
  | .empty, p => [p]
  | .literal text, p => literalEnds text p
  | .chars k, p =>
    match p.rest with
    | [] => []
    | c :: rest => if k.mem c then [p.past c rest] else []
  | .look a, p => if a.holds p then [p] else []
  | .group _ r, p => ends r p
  | .seq r s, p => (ends r p).flatMap (ends s)
  | .alt r s, p => ends r p ++ ends s p
  | .repeat r low high greedy, p =>
    (times (ends r) low p).flatMap (optionalEnds (ends r) low high greedy)

/-- The most preferred match at a place or at the first place behind it, given the bytes and the
character before the place. -/
def leftmostFrom (r : Regex) (passed : Nat) (before : Option Char) : Text → Option Match
  | [] => (r.ends ⟨passed, before, []⟩).head?.map fun q => ⟨passed, q.passed⟩
  | c :: rest =>
    match (r.ends ⟨passed, before, c :: rest⟩).head? with
    | some q => some ⟨passed, q.passed⟩
    | none => r.leftmostFrom (passed + c.utf8Size) (some c) rest

/-- The leftmost match in a text. -/
def leftmost (r : Regex) (text : Text) : Option Match :=
  r.leftmostFrom 0 none text

/-- Whether the matcher of a pattern finds the leftmost match, the most preferred one there, of the
pattern as it is written. -/
def LeftmostFirst (pattern : Text) : Prop :=
  ∀ m r, Matcher.read pattern = .ok m → Regex.written? pattern = some r →
    ∀ text, m.find text = r.leftmost text

end Regex

/-- Whether what an engine makes of a pattern finds the leftmost match of an expression, the most
preferred one there. -/
def Engine.FindsLeftmost (M : Type) [Engine M] (pattern : Text) (r : Regex) : Prop :=
  ∀ m : M, Engine.read pattern = .ok m → ∀ text, Engine.find m text = r.leftmost text

namespace Regex

theorem LeftmostFirst.findsLeftmost {pattern : Text} {r : Regex} (h : LeftmostFirst pattern)
    (hwritten : written? pattern = some r) : Engine.FindsLeftmost Matcher pattern r :=
  fun m hread => h m r hread hwritten

/-! ## Matches are pieces of the text -/

/-- Whether one cursor is reached from another one through a piece of the text. -/
def Reaches (p q : Cursor) : Prop :=
  ∃ word, p.rest = word ++ q.rest ∧ q.passed = p.passed + byteLength word

namespace Reaches

theorem refl (p : Cursor) : Reaches p p := ⟨[], rfl, rfl⟩

theorem trans {p q u : Cursor} (h : Reaches p q) (h' : Reaches q u) : Reaches p u := by
  obtain ⟨word, hrest, hpassed⟩ := h
  obtain ⟨word', hrest', hpassed'⟩ := h'
  refine ⟨word ++ word', by rw [hrest, hrest', List.append_assoc], ?_⟩
  rw [hpassed', hpassed, byteLength_append, Nat.add_assoc]

theorem past {p : Cursor} {c : Char} {rest : Text} (h : p.rest = c :: rest) :
    Reaches p (p.past c rest) :=
  ⟨[c], h, rfl⟩

theorem length_le {p q : Cursor} (h : Reaches p q) : q.rest.length ≤ p.rest.length := by
  obtain ⟨word, hrest, _⟩ := h
  rw [hrest, List.length_append]
  omega

end Reaches

variable {round : Cursor → List Cursor} {greedy : Bool} {p q : Cursor}

theorem reaches_of_mem_literalEnds {text : Text} (h : q ∈ literalEnds text p) : Reaches p q := by
  induction text generalizing p with
  | nil =>
    obtain rfl := List.mem_singleton.1 h
    exact .refl _
  | cons c text ih =>
    rw [literalEnds] at h
    split at h
    · cases h
    · rename_i d rest hrest
      split at h
      · exact (Reaches.past hrest).trans (ih h)
      · cases h

theorem reaches_of_mem_times (hround : ∀ p, ∀ q ∈ round p, Reaches p q) {n : Nat}
    (h : q ∈ times round n p) : Reaches p q := by
  induction n generalizing p with
  | zero =>
    obtain rfl := List.mem_singleton.1 h
    exact .refl _
  | succ n ih =>
    obtain ⟨mid, hmid, hq⟩ := List.mem_flatMap.1 h
    exact (hround p mid hmid).trans (ih hq)

theorem mem_atMost_succ {n : Nat} :
    q ∈ atMost round greedy (n + 1) p ↔
      q = p ∨ ∃ next ∈ round p, q ∈ atMost round greedy n next := by
  cases greedy <;> simp [atMost, or_comm]

theorem mem_anyNumber_succ {n : Nat} :
    q ∈ anyNumber round greedy (n + 1) p ↔
      q = p ∨ ∃ next ∈ round p,
        q ∈ if next.rest.length < p.rest.length then anyNumber round greedy n next else [next] := by
  cases greedy <;> simp [anyNumber, or_comm]

theorem reaches_of_mem_optionalEnds (hround : ∀ p, ∀ q ∈ round p, Reaches p q) {low : Nat}
    {high : Option Nat} (h : q ∈ optionalEnds round low high greedy p) : Reaches p q := by
  have hatMost (n : Nat) (p : Cursor) (h : q ∈ atMost round greedy n p) : Reaches p q := by
    induction n generalizing p with
    | zero =>
      obtain rfl := List.mem_singleton.1 h
      exact .refl _
    | succ n ih =>
      rcases mem_atMost_succ.1 h with rfl | ⟨next, hnext, h⟩
      · exact .refl _
      · exact (hround p next hnext).trans (ih next h)
  have hanyNumber (n : Nat) (p : Cursor) (h : q ∈ anyNumber round greedy n p) : Reaches p q := by
    induction n generalizing p with
    | zero =>
      obtain rfl := List.mem_singleton.1 h
      exact .refl _
    | succ n ih =>
      rcases mem_anyNumber_succ.1 h with rfl | ⟨next, hnext, h⟩
      · exact .refl _
      · split at h
        · exact (hround p next hnext).trans (ih next h)
        · obtain rfl := List.mem_singleton.1 h
          exact hround p q hnext
  cases high with
  | some high => exact hatMost _ p h
  | none => exact hanyNumber _ p h

/-- A match takes a piece of the text. -/
theorem reaches_of_mem_ends {r : Regex} (h : q ∈ r.ends p) : Reaches p q := by
  induction r generalizing p q with
  | empty =>
    obtain rfl := List.mem_singleton.1 h
    exact .refl _
  | literal text => exact reaches_of_mem_literalEnds h
  | chars k =>
    rw [ends] at h
    split at h
    · cases h
    · rename_i c rest hrest
      split at h
      · obtain rfl := List.mem_singleton.1 h
        exact .past hrest
      · cases h
  | look a =>
    rw [ends] at h
    split at h
    · obtain rfl := List.mem_singleton.1 h
      exact .refl _
    · cases h
  | group _ r ih => exact ih h
  | seq r s ihr ihs =>
    obtain ⟨mid, hmid, hq⟩ := List.mem_flatMap.1 h
    exact (ihr hmid).trans (ihs hq)
  | alt r s ihr ihs =>
    rcases List.mem_append.1 h with h | h
    · exact ihr h
    · exact ihs h
  | «repeat» r low high greedy ih =>
    obtain ⟨mid, hmid, hq⟩ := List.mem_flatMap.1 h
    have hround : ∀ p, ∀ q ∈ r.ends p, Reaches p q := fun _ _ hq => ih hq
    exact (reaches_of_mem_times hround hmid).trans (reaches_of_mem_optionalEnds hround hq)

/-! ## Expressions without conditions -/

/-- Whether no condition on a place is asked for. -/
def isPlain : Regex → Bool
  | .look _ => false
  | .group _ r | .repeat r _ _ _ => r.isPlain
  | .seq r s | .alt r s => r.isPlain && s.isPlain
  | _ => true

theorem isPlain_ofFactors {rs : List Regex} (h : ∀ r ∈ rs, r.isPlain = true) :
    (ofFactors rs).isPlain = true := by
  induction rs with
  | nil => rfl
  | cons r rs ih =>
    have hlater := ih fun s hs => h s (List.mem_cons_of_mem _ hs)
    cases rs with
    | nil => exact h r List.mem_cons_self
    | cons s rs => simp [ofFactors, isPlain, h r List.mem_cons_self, hlater]

theorem isPlain_ofBranches {rs : List Regex} (h : ∀ r ∈ rs, r.isPlain = true) :
    (ofBranches rs).isPlain = true := by
  induction rs with
  | nil => rfl
  | cons r rs ih =>
    have hlater := ih fun s hs => h s (List.mem_cons_of_mem _ hs)
    cases rs with
    | nil => exact h r List.mem_cons_self
    | cons s rs => simp [ofBranches, isPlain, h r List.mem_cons_self, hlater]

/-- Whether what ends leave of a text depends on what follows the cursor alone. -/
def DependsOnRest (f : Cursor → List Cursor) : Prop :=
  ∀ a b : Cursor, a.rest = b.rest → (f a).map (·.rest) = (f b).map (·.rest)

theorem dependsOnRest_here : DependsOnRest fun p => [p] := fun a b h => by simp [h]

theorem dependsOnRest_literalEnds (text : Text) : DependsOnRest (literalEnds text) := by
  induction text with
  | nil => exact dependsOnRest_here
  | cons c text ih =>
    intro a b h
    rw [literalEnds, literalEnds, h]
    split
    · rfl
    · split
      · exact ih _ _ rfl
      · rfl

theorem DependsOnRest.times (h : DependsOnRest round) (n : Nat) :
    DependsOnRest (Regex.times round n) := by
  induction n with
  | zero => exact dependsOnRest_here
  | succ n ih => exact fun a b hab => Code.map_flatMap_congr ih (h a b hab)

theorem DependsOnRest.optionalEnds (h : DependsOnRest round) (low : Nat) (high : Option Nat)
    (greedy : Bool) : DependsOnRest (Regex.optionalEnds round low high greedy) := by
  have hatMost (n : Nat) : DependsOnRest (atMost round greedy n) := by
    induction n with
    | zero => exact dependsOnRest_here
    | succ n ih =>
      intro a b hab
      have hmore := Code.map_flatMap_congr ih (h a b hab)
      cases greedy <;> simp only [atMost, if_true, Bool.false_eq_true, if_false, List.map_append,
        List.map_cons, List.map_nil, hmore, hab]
  have hanyNumber (n : Nat) : DependsOnRest (anyNumber round greedy n) := by
    induction n with
    | zero => exact dependsOnRest_here
    | succ n ih =>
      intro a b hab
      have hstep : DependsOnRest fun next =>
          if next.rest.length < b.rest.length then anyNumber round greedy n next else [next] := by
        intro c d hcd
        simp only [hcd]
        split
        · exact ih c d hcd
        · simp [hcd]
      have hmore := Code.map_flatMap_congr hstep (h a b hab)
      cases greedy <;> simp only [anyNumber, if_true, Bool.false_eq_true, if_false, List.map_append,
        List.map_cons, List.map_nil, hmore, hab]
  intro a b hab
  cases high with
  | some high => exact hatMost _ a b hab
  | none =>
    have hlength : a.rest.length = b.rest.length := congrArg List.length hab
    simp only [Regex.optionalEnds, hlength]
    exact hanyNumber _ a b hab

/-- Where no condition is asked for, the text before a place does not count. -/
theorem dependsOnRest_ends {r : Regex} (hr : r.isPlain = true) : DependsOnRest r.ends := by
  induction r with
  | empty => exact dependsOnRest_here
  | literal text => exact dependsOnRest_literalEnds text
  | chars k =>
    intro a b h
    rw [ends, ends, h]
    split
    · rfl
    · split <;> rfl
  | look a => cases hr
  | group _ r ih => exact ih hr
  | seq r s ihr ihs =>
    simp only [isPlain, Bool.and_eq_true] at hr
    exact fun a b hab => Code.map_flatMap_congr (ihs hr.2) (ihr hr.1 a b hab)
  | alt r s ihr ihs =>
    simp only [isPlain, Bool.and_eq_true] at hr
    intro a b hab
    simp only [ends, List.map_append, ihr hr.1 a b hab, ihs hr.2 a b hab]
  | «repeat» r low high greedy ih =>
    exact fun a b hab => Code.map_flatMap_congr ((ih hr).optionalEnds low high greedy)
      ((ih hr).times low a b hab)

theorem rest_of_mem_literalEnds {text : Text} (h : q ∈ literalEnds text p) :
    p.rest = text ++ q.rest := by
  induction text generalizing p with
  | nil =>
    obtain rfl := List.mem_singleton.1 h
    rfl
  | cons c text ih =>
    rw [literalEnds] at h
    split at h
    · cases h
    · rename_i d rest hrest
      split at h
      · rename_i hd
        rw [hrest, hd, List.cons_append, ← ih h]
        rfl
      · cases h

/-- A text is matched where it comes first. -/
theorem literalEnds_of_append {text rest : Text} (h : p.rest = text ++ rest) :
    ∃ q, literalEnds text p = [q] ∧ q.rest = rest ∧ q.passed = p.passed + byteLength text := by
  induction text generalizing p with
  | nil => exact ⟨p, rfl, h, rfl⟩
  | cons c text ih =>
    obtain ⟨q, hends, hrest, hpassed⟩ := @ih (p.past c (text ++ rest)) rfl
    refine ⟨q, ?_, hrest, ?_⟩
    · rw [literalEnds, h]
      exact (if_pos rfl).trans hends
    · rw [hpassed, byteLength_cons, Cursor.past, Nat.add_assoc]

theorem literalEnds_eq_nil {text : Text} (h : ¬ text <+: p.rest) : literalEnds text p = [] := by
  refine List.eq_nil_iff_forall_not_mem.2 fun q hq => h ?_
  exact ⟨q.rest, (rest_of_mem_literalEnds hq).symm⟩

theorem mem_optionalEnds_self (round : Cursor → List Cursor) (low : Nat) (high : Option Nat)
    (greedy : Bool) (p : Cursor) : p ∈ optionalEnds round low high greedy p := by
  have hatMost (n : Nat) : p ∈ atMost round greedy n p := by
    cases n with
    | zero => exact List.mem_singleton.2 rfl
    | succ n => exact mem_atMost_succ.2 (Or.inl rfl)
  have hanyNumber (n : Nat) : p ∈ anyNumber round greedy n p := by
    cases n with
    | zero => exact List.mem_singleton.2 rfl
    | succ n => exact mem_anyNumber_succ.2 (Or.inl rfl)
  cases high with
  | some high => exact hatMost _
  | none => exact hanyNumber _

/-- Where no condition is asked for, a match that takes nothing in one place is there in every
place. -/
theorem mem_ends_of_empty {r : Regex} (hr : r.isPlain = true) (h : q ∈ r.ends p)
    (hlength : p.rest.length ≤ q.rest.length) (e : Cursor) : e ∈ r.ends e := by
  induction r generalizing p q e with
  | empty => exact List.mem_singleton.2 rfl
  | literal text =>
    have hrest := congrArg List.length (rest_of_mem_literalEnds h)
    rw [List.length_append] at hrest
    obtain rfl : text = [] := List.length_eq_zero_iff.1 (by omega)
    exact List.mem_singleton.2 rfl
  | chars k =>
    rw [ends] at h
    split at h
    · cases h
    · rename_i c rest hrest
      split at h
      · obtain rfl := List.mem_singleton.1 h
        rw [hrest] at hlength
        exact absurd hlength (Nat.not_succ_le_self _)
      · cases h
  | look a => cases hr
  | group _ r ih => exact ih hr h hlength e
  | seq r s ihr ihs =>
    simp only [isPlain, Bool.and_eq_true] at hr
    obtain ⟨mid, hmid, hq⟩ := List.mem_flatMap.1 h
    have h₁ := (reaches_of_mem_ends hmid).length_le
    have h₂ := (reaches_of_mem_ends hq).length_le
    exact List.mem_flatMap.2 ⟨e, ihr hr.1 hmid (by omega) e, ihs hr.2 hq (by omega) e⟩
  | alt r s ihr ihs =>
    simp only [isPlain, Bool.and_eq_true] at hr
    rcases List.mem_append.1 h with h | h
    · exact List.mem_append_left _ (ihr hr.1 h hlength e)
    · exact List.mem_append_right _ (ihs hr.2 h hlength e)
  | «repeat» r low high greedy ih =>
    obtain ⟨mid, hmid, hq⟩ := List.mem_flatMap.1 h
    have hround : ∀ p, ∀ q ∈ r.ends p, Reaches p q := fun _ _ hq => reaches_of_mem_ends hq
    have hlast := (reaches_of_mem_optionalEnds hround hq).length_le
    refine List.mem_flatMap.2 ⟨e, ?_, mem_optionalEnds_self _ _ _ _ e⟩
    have htimes : ∀ (n : Nat) (p : Cursor), mid ∈ times r.ends n p →
        p.rest.length ≤ mid.rest.length → e ∈ times r.ends n e := by
      intro n
      induction n with
      | zero => exact fun _ _ _ => List.mem_singleton.2 rfl
      | succ n ihn =>
        intro p hmid hle
        obtain ⟨next, hnext, hmid⟩ := List.mem_flatMap.1 hmid
        have h₁ := (hround p next hnext).length_le
        have h₂ := (reaches_of_mem_times hround hmid).length_le
        exact List.mem_flatMap.2 ⟨e, ih hr hnext (by omega) e, ihn next hmid (by omega)⟩
    exact htimes low p hmid (by omega)

/-- An expression without conditions that does not match the empty text never matches it. -/
theorem length_lt_of_mem_ends {r : Regex} (hr : r.isPlain = true)
    (hnil : r.ends ⟨0, none, []⟩ = []) (h : q ∈ r.ends p) : q.rest.length < p.rest.length := by
  refine Nat.lt_of_not_le fun hle => ?_
  have hmem := mem_ends_of_empty hr h hle ⟨0, none, []⟩
  rw [hnil] at hmem
  cases hmem

/-! ## Choices and greedy rounds -/

/-- The branches of a choice are tried in their order. -/
theorem ends_ofBranches (rs : List Regex) (p : Cursor) :
    (ofBranches rs).ends p = rs.flatMap (·.ends p) := by
  induction rs with
  | nil => cases h : p.rest <;> simp [ofBranches, ends, h, CharClass.mem, CharClass.none, inRanges]
  | cons r rs ih =>
    cases rs with
    | nil => simp [ofBranches]
    | cons s rs =>
      rw [ofBranches, ends, ih]
      · rfl
      · simp

theorem anyNumber_ne_nil (round : Cursor → List Cursor) (n : Nat) (p : Cursor) :
    anyNumber round true n p ≠ [] := by
  cases n <;> simp [anyNumber]

/-- A greedy repetition goes on with what one round prefers, if the rounds move on. -/
theorem head?_anyNumber {r : Regex} (hr : r.isPlain = true)
    (hnil : r.ends ⟨0, none, []⟩ = []) (n : Nat) (p : Cursor) :
    (anyNumber r.ends true (n + 1) p).head? =
      match (r.ends p).head? with
      | none => some p
      | some next => (anyNumber r.ends true n next).head? := by
  have hmore : ((r.ends p).flatMap fun next =>
      if next.rest.length < p.rest.length then anyNumber r.ends true n next else [next]) =
      (r.ends p).flatMap (anyNumber r.ends true n) :=
    Code.flatMap_congr_of_mem fun next hnext => if_pos (length_lt_of_mem_ends hr hnil hnext)
  rw [anyNumber, if_pos rfl, hmore]
  cases hends : r.ends p with
  | nil => rfl
  | cons next others =>
    obtain ⟨first, more, hfirst⟩ := List.exists_cons_of_ne_nil (anyNumber_ne_nil r.ends n next)
    simp [hfirst]

/-- Any number of characters of a class take the whole run of them. -/
theorem exists_ends_run (k : CharClass) (p : Cursor) :
    ∃ q, ((Regex.repeat (.chars k) 0 none true).ends p).head? = some q ∧
      q.rest = p.rest.dropWhile k.mem := by
  have hrounds (n : Nat) (p : Cursor) (hn : p.rest.length ≤ n) :
      ∃ q, (anyNumber (Regex.chars k).ends true n p).head? = some q ∧
        q.rest = p.rest.dropWhile k.mem := by
    induction n generalizing p with
    | zero =>
      have hrest : p.rest = [] := List.length_eq_zero_iff.1 (Nat.le_zero.1 hn)
      exact ⟨p, rfl, by rw [hrest]; rfl⟩
    | succ n ih =>
      rw [head?_anyNumber rfl rfl, ends]
      cases hrest : p.rest with
      | nil => exact ⟨p, rfl, hrest⟩
      | cons c rest =>
        rw [hrest, List.length_cons] at hn
        by_cases hc : k.mem c = true
        · rw [List.dropWhile_cons_of_pos hc]
          simp only [if_pos hc]
          exact ih (p.past c rest) (Nat.le_of_succ_le_succ hn)
        · rw [List.dropWhile_cons_of_neg hc]
          simp only [if_neg hc]
          exact ⟨p, rfl, hrest⟩
  rw [ends, times, List.flatMap_singleton]
  exact hrounds _ p (Nat.le_refl _)

/-- One or more greedy rounds take what one round prefers and then what further rounds prefer. -/
theorem head?_ends_oneOrMore (r : Regex) (p : Cursor) :
    ((Regex.repeat r 1 none true).ends p).head? =
      (r.ends p).head?.bind fun next => (anyNumber r.ends true next.rest.length next).head? := by
  have htimes : times r.ends 1 p = r.ends p := List.flatMap_singleton' _
  rw [ends, htimes]
  cases r.ends p with
  | nil => rfl
  | cons next others =>
    obtain ⟨first, more, hfirst⟩ :=
      List.exists_cons_of_ne_nil (anyNumber_ne_nil r.ends next.rest.length next)
    simp [optionalEnds, hfirst]

/-! ## Leftmost matches -/

/-- Where matches of two expressions end alike, the leftmost ones are the same. -/
theorem leftmost_congr {r s : Regex} (h : r.ends = s.ends) (text : Text) :
    r.leftmost text = s.leftmost text := by
  have hfrom (passed : Nat) (before : Option Char) :
      r.leftmostFrom passed before text = s.leftmostFrom passed before text := by
    induction text generalizing passed before with
    | nil => rw [leftmostFrom, leftmostFrom, h]
    | cons c text ih => rw [leftmostFrom, leftmostFrom, h, ih]
  exact hfrom 0 none

theorem leftmostFrom_seq_textStart (r : Regex) (passed : Nat) (c : Char) (text : Text) :
    (Regex.seq (.look .textStart) r).leftmostFrom passed (some c) text = none := by
  induction text generalizing passed c with
  | nil => rfl
  | cons d text ih => exact ih _ d

/-- An expression behind the condition that the text starts is matched there or not at all. -/
theorem leftmost_seq_textStart (r : Regex) (text : Text) :
    (Regex.seq (.look .textStart) r).leftmost text =
      (r.ends ⟨0, none, text⟩).head?.map fun q => ⟨0, q.passed⟩ := by
  have hends : (Regex.seq (.look .textStart) r).ends ⟨0, none, text⟩ = r.ends ⟨0, none, text⟩ := by
    simp [ends, Assertion.holds]
  cases text with
  | nil => rw [leftmost, leftmostFrom, hends]
  | cons c text =>
    rw [leftmost, leftmostFrom, hends, leftmostFrom_seq_textStart]
    cases (r.ends ⟨0, none, c :: text⟩).head? <;> rfl

end Regex

end PredictiveParsing
