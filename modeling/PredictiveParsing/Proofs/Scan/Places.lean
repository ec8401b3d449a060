import PredictiveParsing.Proofs.Scan.Reading

/-!
# Places and the tokens read between them

A place cuts a source in two: the text behind it and the text in front of it. From one place to
another a scanner reads tokens, each behind a gap. A token is judged with the text that actually
follows it, so that reading can be put together and taken apart at every place.

* `Reads.append`, `Reads.split`: reading in two parts.
* `Reads.slice`: the text of a token is the slice of the source at its span.
* `merge_cover`: the spans of the first and the last part of sorted tokens join to the span of all.
-/

namespace PredictiveParsing

open Text

/-- A source that is cut in two. -/
structure Place where
  before : Text
  rest : Text

namespace Place

def source (p : Place) : Text := p.before ++ p.rest

def store (p : Place) : Store := Store.between p.before p.rest

/-- The source is short enough for its offsets. -/
def Fits (p : Place) : Prop := byteLength p.source < offsetLimit

end Place

namespace Scanner

/-- The place behind the gap that comes first. -/
def behind (scanner : Scanner) (p : Place) : Place :=
  ⟨p.before ++ (takeBytes? p.rest (scanner.gapLength p.rest)).getD [],
    (dropBytes? p.rest (scanner.gapLength p.rest)).getD p.rest⟩

/-- Behind the gap that comes first, a kind matches. -/
def offers (scanner : Scanner) (p : Place) (id : KindId) : Bool :=
  scanner.lexicon.sees (scanner.behind p).rest id

variable {scanner : Scanner}

theorem behind_of_gap {before gap rest : Text} (h : scanner.Gap gap rest) :
    scanner.behind ⟨before, gap ++ rest⟩ = ⟨before ++ gap, rest⟩ := by
  have hlen : scanner.gapLength (gap ++ rest) = byteLength gap := h
  simp [behind, hlen]

/-- A place with the gap in front of it and the place behind the gap. -/
theorem exists_behind (scanner : Scanner) (p : Place) :
    ∃ gap rest, p.rest = gap ++ rest ∧ scanner.Gap gap rest ∧
      scanner.behind p = ⟨p.before ++ gap, rest⟩ := by
  obtain ⟨gap, rest, hrest, hgap⟩ := scanner.exists_gap p.rest
  refine ⟨gap, rest, hrest, hgap, ?_⟩
  rw [← behind_of_gap hgap, ← hrest]

theorem offers_of_behind {p : Place} {before rest : Text}
    (h : scanner.behind p = ⟨before, rest⟩) : scanner.offers p = scanner.lexicon.sees rest := by
  funext id
  rw [offers, h]

theorem source_behind (p : Place) : (scanner.behind p).source = p.source := by
  obtain ⟨gap, rest, hrest, -, hbehind⟩ := scanner.exists_behind p
  rw [hbehind, Place.source, Place.source, hrest, List.append_assoc]

/-! ## Reading -/

/-- From one place to another a scanner reads tokens, each behind a gap. -/
inductive Reads (scanner : Scanner) : Place → List Token → Place → Prop where
  | nil {p : Place} : Reads scanner p [] p
  | cons {p q : Place} {t : Token} {gap rest : Text} {tokens : List Token} :
      p.rest = gap ++ (t.text ++ rest) → scanner.Gap gap (t.text ++ rest) →
      scanner.lexicon.Takes t.kind t.text rest →
      t.span.start = byteLength (p.before ++ gap) →
      t.span.stop = byteLength (p.before ++ gap ++ t.text) →
      Reads scanner ⟨p.before ++ gap ++ t.text, rest⟩ tokens q →
      Reads scanner p (t :: tokens) q

namespace Reads

variable {p q r : Place} {a b tokens : List Token}

theorem append (ha : scanner.Reads p a q) (hb : scanner.Reads q b r) :
    scanner.Reads p (a ++ b) r := by
  induction ha with
  | nil => exact hb
  | cons hrest hgap htakes hstart hstop _ ih => exact .cons hrest hgap htakes hstart hstop (ih hb)

theorem split (h : scanner.Reads p (a ++ b) r) :
    ∃ q, scanner.Reads p a q ∧ scanner.Reads q b r := by
  induction a generalizing p with
  | nil => exact ⟨p, .nil, h⟩
  | cons t a ih =>
    cases h with
    | cons hrest hgap htakes hstart hstop hmore =>
      obtain ⟨q, ha, hb⟩ := ih hmore
      exact ⟨q, .cons hrest hgap htakes hstart hstop ha, hb⟩

theorem source_eq (h : scanner.Reads p tokens q) : q.source = p.source := by
  induction h with
  | nil => rfl
  | cons hrest _ _ _ _ _ ih => rw [ih, Place.source, Place.source, hrest]; simp

theorem fits (h : scanner.Reads p tokens q) (hp : p.Fits) : q.Fits := by
  rw [Place.Fits, h.source_eq]
  exact hp

/-- Every token takes a byte at least. -/
theorem length_le (h : scanner.Reads p tokens q) :
    byteLength q.rest + tokens.length ≤ byteLength p.rest := by
  induction h with
  | nil => simp
  | cons hrest _ htakes _ _ _ ih =>
    have hpos := Nat.pos_of_ne_zero fun h => htakes.ne_nil (byteLength_eq_zero_iff.1 h)
    rw [hrest]
    simp only [byteLength_append, List.length_cons] at ih ⊢
    omega

theorem before_le (h : scanner.Reads p tokens q) : byteLength p.before ≤ byteLength q.before := by
  have hsource := congrArg byteLength h.source_eq
  have hlen := h.length_le
  simp only [Place.source, byteLength_append] at hsource
  omega

/-- The spans of tokens lie between the places, and their ends behind their starts. -/
theorem span_mem (h : scanner.Reads p tokens q) {t : Token} (ht : t ∈ tokens) :
    byteLength p.before ≤ t.span.start ∧ t.span.start < t.span.stop ∧
      t.span.stop ≤ byteLength q.before := by
  induction h with
  | nil => cases ht
  | @cons p q u gap rest tokens hrest hgap htakes hstart hstop hmore ih =>
    have hpos := Nat.pos_of_ne_zero fun h => htakes.ne_nil (byteLength_eq_zero_iff.1 h)
    have hle := hmore.before_le
    simp only [byteLength_append] at hstart hstop hle ih
    rcases List.mem_cons.1 ht with rfl | ht
    · omega
    · have hmem := ih ht
      omega

/-- The text of a token is the slice of the source at its span. -/
theorem slice (h : scanner.Reads p tokens q) {t : Token} (ht : t ∈ tokens) :
    Text.slice p.source t.span.start t.span.stop = some t.text := by
  induction h with
  | nil => cases ht
  | @cons p q u gap rest tokens hrest hgap htakes hstart hstop hmore ih =>
    rcases List.mem_cons.1 ht with rfl | ht
    · have hsource : p.source = p.before ++ gap ++ t.text ++ rest := by
        rw [Place.source, hrest]
        simp
      rw [hstart, hstop, hsource, byteLength_append (p.before ++ gap) t.text, slice_append]
    · have hsource : p.source = (⟨p.before ++ gap ++ u.text, rest⟩ : Place).source := by
        rw [Place.source, Place.source, hrest]
        simp
      rw [hsource]
      exact ih ht

/-- Every token stands in the source behind a gap, and is taken there. -/
theorem exists_gap (h : scanner.Reads p tokens q) {t : Token} (ht : t ∈ tokens) :
    ∃ before gap rest, p.source = before ++ gap ++ t.text ++ rest ∧
      scanner.Gap gap (t.text ++ rest) ∧ scanner.lexicon.Takes t.kind t.text rest ∧
      t.span.stop = byteLength (before ++ gap ++ t.text) := by
  obtain ⟨a, b, rfl⟩ := List.append_of_mem ht
  obtain ⟨r, ha, hb⟩ := h.split
  cases hb with
  | @cons _ _ _ gap rest _ hrest hgap htakes _ hstop _ =>
    refine ⟨r.before, gap, rest, ?_, hgap, htakes, hstop⟩
    rw [← ha.source_eq, Place.source, hrest]
    simp

/-- The first token is what is offered behind the gap. -/
theorem takes_behind {t : Token} (h : scanner.Reads p (t :: tokens) q) :
    ∃ rest, (scanner.behind p).rest = t.text ++ rest ∧
      scanner.lexicon.Takes t.kind t.text rest := by
  cases h with
  | @cons _ _ _ gap rest _ hrest hgap htakes hstart hstop hmore =>
    have hp : p = ⟨p.before, gap ++ (t.text ++ rest)⟩ := by rw [← hrest]
    exact ⟨rest, by rw [hp, behind_of_gap hgap], htakes⟩

theorem offers {t : Token} (h : scanner.Reads p (t :: tokens) q) :
    scanner.offers p t.kind = true := by
  obtain ⟨rest, hrest, htakes⟩ := h.takes_behind
  rw [Scanner.offers, hrest]
  exact htakes.sees

end Reads

/-- What is offered can be read. -/
theorem exists_reads_of_offers {p : Place} {id : KindId} (h : scanner.offers p id = true) :
    ∃ t q, t.kind = id ∧ scanner.Reads p [t] q := by
  obtain ⟨gap, rest, hrest, hgap, hbehind⟩ := scanner.exists_behind p
  rw [offers_of_behind hbehind] at h
  obtain ⟨word, rest', rfl, htakes⟩ := Lexicon.exists_takes h
  refine ⟨tokenOf id (p.before ++ gap) word, ⟨p.before ++ gap ++ word, rest'⟩, rfl, ?_⟩
  exact .cons hrest hgap htakes rfl (byteLength_append _ _).symm .nil

/-! ## The span of tokens -/

/-- From the start of the first token to the end of the last. -/
def cover (tokens : List Token) : Span :=
  ⟨tokens.head?.elim 0 (·.span.start), tokens.getLast?.elim 0 (·.span.stop)⟩

theorem cover_start {tokens : List Token} (h : tokens ≠ []) :
    (cover tokens).start = (tokens.head h).span.start := by
  rw [cover, List.head?_eq_some_head h]
  rfl

theorem cover_stop {tokens : List Token} (h : tokens ≠ []) :
    (cover tokens).stop = (tokens.getLast h).span.stop := by
  rw [cover, List.getLast?_eq_some_getLast h]
  rfl

/-- Neither the starts nor the ends of tokens go back. -/
def Sorted (tokens : List Token) : Prop :=
  tokens.Pairwise fun t u => t.span.start ≤ u.span.start ∧ t.span.stop ≤ u.span.stop

theorem Reads.sorted {p q : Place} {tokens : List Token} (h : scanner.Reads p tokens q) :
    Sorted tokens := by
  induction h with
  | nil => exact List.Pairwise.nil
  | @cons p q t gap rest tokens hrest hgap htakes hstart hstop hmore ih =>
    refine List.Pairwise.cons (fun u hu => ?_) ih
    have hmem := hmore.span_mem hu
    simp only [byteLength_append] at hstart hstop hmem
    omega

/-- The spans of a first and a last part join to the span of all. -/
theorem merge_cover {a m b : List Token} (h : Sorted (a ++ (m ++ b))) (ha : a ≠ [])
    (hb : b ≠ []) : (cover a).merge (cover b) = cover (a ++ (m ++ b)) := by
  have hpair := (List.pairwise_append.1 h).2.2
  have hfirst := hpair _ (List.head_mem ha) _ (List.mem_append_right m (List.head_mem hb))
  have hlast := hpair _ (List.getLast_mem ha) _ (List.mem_append_right m (List.getLast_mem hb))
  have hall : cover (a ++ (m ++ b)) = ⟨(cover a).start, (cover b).stop⟩ := by
    rw [cover, cover, cover, List.head?_append, List.head?_eq_some_head ha, List.getLast?_append,
      List.getLast?_append, List.getLast?_eq_some_getLast hb]
    rfl
  rw [hall, Span.merge, cover_start ha, cover_start hb, cover_stop ha, cover_stop hb,
    Nat.min_eq_left hfirst.1, Nat.max_eq_right hlast.2]

/-- The spans of the first and the last of several tokens join to the span of all. -/
theorem merge_ends {first last : Token} {m : List Token} (h : Sorted (first :: (m ++ [last]))) :
    first.span.merge last.span = cover (first :: (m ++ [last])) :=
  merge_cover (a := [first]) h (List.cons_ne_nil _ _) (List.cons_ne_nil _ _)

end Scanner

end PredictiveParsing
