import PredictiveParsing.Proofs.Lexicon.Building
import PredictiveParsing.Proofs.Lexicon.Forms
import PredictiveParsing.Proofs.Regex.CodeOrder

/-!
# Passing over tokens

The kinds that are passed over are joined into one pattern, which matches a whole run of them. The
same can be done one token after the other: of the kinds that match at the front of the text, the
first one defined drops what it prefers to match, and this is repeated until none of them matches
(`Lexicon.Drops`).

Both are the same for every engine that keeps the order of the rules (`Lexicon.KeepsOrder`), if no
rule asks for a condition on a place. A condition could tell the start of a text from the place
behind a token. The engine of this library keeps the order in which patterns are written where it
finds them leftmost first (`Regex.LeftmostFirst`) and the parts of the rules are complete on their
own.

* `Lexicon.KeepsOrder.exists_rounds`: greedy rounds of a choice drop one token after the other.
* `Lexicon.KeepsOrder.skipLength_eq`, `Lexicon.skip_kind_by_kind`: the two ways of passing over
  tokens agree, and leave nothing to pass over.
-/

namespace PredictiveParsing

open Text

variable {M : Type} [Engine M]

namespace Kind

/-- The bytes that the rule of a kind takes at the front of a text. A keyword also takes the rest of
a longer word. -/
def frontLength? (kind : Kind M) (text : Text) : Option Nat :=
  (Engine.find kind.matcher text).bind fun found =>
    if found.start = 0 then some found.stop else none

end Kind

namespace Lexicon

/-- The kinds that are passed over, in their order. -/
def skipped (lexicon : Lexicon M) : List (Kind M) := lexicon.kinds.filter (·.flags.skipped)

variable {lexicon : Lexicon M}

theorem compileSkip_skipped {definitions : List KindDefinition}
    (h : build definitions = .ok lexicon) :
    compileSkip (lexicon.skipped.map (·.rule.body)) = .ok lexicon.skip := by
  obtain ⟨⟨draft, hholds, hkinds, -⟩, hskip⟩ := build_ok h
  rw [← hholds.definitions_eq, hkinds, skipBodies, List.filter_map, List.map_map] at hskip
  exact hskip

/-- The bytes that the first of the kinds to be passed over takes that matches at the front. -/
def dropLength? (lexicon : Lexicon M) (text : Text) : Option Nat :=
  lexicon.skipped.findSome? (·.frontLength? text)

/-- What is left of a text when one token after the other is dropped, until none can be. -/
inductive Drops (lexicon : Lexicon M) : Text → Text → Prop where
  | done {text : Text} (h : lexicon.dropLength? text = none) : Drops lexicon text text
  | step {text rest last : Text} {n : Nat} (h : lexicon.dropLength? text = some n)
      (hrest : dropBytes? text n = some rest) (hlast : Drops lexicon rest last) :
      Drops lexicon text last

theorem Drops.unique {text last last' : Text} (h : lexicon.Drops text last)
    (h' : lexicon.Drops text last') : last' = last := by
  induction h with
  | done hnone =>
    cases h' with
    | done => rfl
    | step hsome => rw [hnone] at hsome; cases hsome
  | step hsome hrest _ ih =>
    cases h' with
    | done hnone => rw [hsome] at hnone; cases hnone
    | step hsome' hrest' hlast' =>
      rw [hsome] at hsome'
      cases hsome'
      rw [hrest] at hrest'
      cases hrest'
      exact ih hlast'

theorem Drops.dropLength?_last {text last : Text} (h : lexicon.Drops text last) :
    lexicon.dropLength? last = none := by
  induction h with
  | done h => exact h
  | step _ _ _ ih => exact ih

end Lexicon

/-! ## What the matchers find -/

namespace Kind

/-- The engine of a kind keeps the order of a form of its rule, which asks for no condition behind
the start of the text. -/
structure KeepsOrder (kind : Kind M) (form : Rule → Regex) : Prop where
  compiled : kind.Compiled
  plain : (form kind.rule).isPlain = true
  leftmost :
    Engine.FindsLeftmost M kind.rule.anchored (.seq (.look .textStart) (form kind.rule))

namespace KeepsOrder

variable {kind : Kind M} {form : Rule → Regex}

/-- The matcher of a kind finds what the form of its rule prefers at the front. -/
theorem find_eq (h : kind.KeepsOrder form) (text : Text) :
    Engine.find kind.matcher text =
      ((form kind.rule).ends ⟨0, none, text⟩).head?.map fun q => ⟨0, q.passed⟩ := by
  rw [h.leftmost _ h.compiled.read, Regex.leftmost_seq_textStart]

theorem frontLength?_eq (h : kind.KeepsOrder form) (text : Text) :
    kind.frontLength? text = ((form kind.rule).ends ⟨0, none, text⟩).head?.map (·.passed) := by
  rw [frontLength?, h.find_eq]
  cases ((form kind.rule).ends ⟨0, none, text⟩).head? <;> rfl

theorem ends_form_nil (h : kind.KeepsOrder form) : (form kind.rule).ends ⟨0, none, []⟩ = [] := by
  have hnone := h.compiled.find_nil
  rw [h.find_eq, Option.map_eq_none_iff, List.head?_eq_none_iff] at hnone
  exact hnone

/-- Where nothing can be dropped, there is no token of the kind. -/
theorem matchLength_eq_none (h : kind.KeepsOrder form) {text : Text}
    (hnone : kind.frontLength? text = none) : kind.matchLength text = none := by
  rw [h.frontLength?_eq, Option.map_eq_none_iff] at hnone
  rw [matchLength, h.find_eq, hnone]
  rfl

end KeepsOrder

end Kind

namespace Lexicon

/-- The choice between the kinds that are passed over, in their order. -/
def skipChoice (lexicon : Lexicon M) (form : Rule → Regex) : Regex :=
  Regex.ofBranches (lexicon.skipped.map fun kind => form kind.rule)

/-- The engine of a lexicon keeps the order of a form of rules in the kinds that are passed over, by
themselves and in a run of them. -/
structure KeepsOrder (lexicon : Lexicon M) (form : Rule → Regex) : Prop where
  kinds : ∀ kind ∈ lexicon.skipped, kind.KeepsOrder form
  compiled : compileSkip (lexicon.skipped.map (·.rule.body)) = .ok lexicon.skip
  run : lexicon.skipped ≠ [] →
    Engine.FindsLeftmost M (runPattern (lexicon.skipped.map (·.rule.body)))
      (.seq (.look .textStart) (.repeat (lexicon.skipChoice form) 1 none true))

namespace KeepsOrder

variable {lexicon : Lexicon M} {form : Rule → Regex} (h : lexicon.KeepsOrder form)

include h

theorem isPlain_skipChoice : (lexicon.skipChoice form).isPlain = true :=
  Regex.isPlain_ofBranches <| List.forall_mem_map.2 fun kind hkind => (h.kinds kind hkind).plain

theorem ends_skipChoice_nil : (lexicon.skipChoice form).ends ⟨0, none, []⟩ = [] := by
  rw [skipChoice, Regex.ends_ofBranches, List.flatMap_eq_nil_iff]
  exact List.forall_mem_map.2 fun kind hkind => (h.kinds kind hkind).ends_form_nil

/-- What the choice prefers is what the first kind that matches prefers. -/
theorem dropLength?_eq (text : Text) :
    lexicon.dropLength? text =
      ((lexicon.skipChoice form).ends ⟨0, none, text⟩).head?.map (·.passed) := by
  have hkinds : lexicon.dropLength? text = lexicon.skipped.findSome? fun kind =>
      ((form kind.rule).ends ⟨0, none, text⟩).head?.map (·.passed) :=
    Thread.findSome?_congr_of_mem fun kind hkind => (h.kinds kind hkind).frontLength?_eq text
  rw [hkinds, skipChoice, Regex.ends_ofBranches, List.head?_flatMap, List.findSome?_map,
    List.map_findSome?]
  rfl

/-- The text before a place has no influence on what is dropped there. -/
theorem head?_ends_skipChoice (p : Cursor) :
    ((lexicon.skipChoice form).ends ⟨0, none, p.rest⟩).head?.map (·.rest) =
      ((lexicon.skipChoice form).ends p).head?.map (·.rest) := by
  rw [← List.head?_map, ← List.head?_map,
    Regex.dependsOnRest_ends h.isPlain_skipChoice ⟨0, none, p.rest⟩ p rfl]

theorem dropLength?_of_head?_eq_none {p : Cursor}
    (hhead : ((lexicon.skipChoice form).ends p).head? = none) :
    lexicon.dropLength? p.rest = none := by
  have hstart := h.head?_ends_skipChoice p
  rw [hhead, Option.map_none, Option.map_eq_none_iff] at hstart
  rw [h.dropLength?_eq, hstart]
  rfl

theorem dropLength?_of_head? {p next : Cursor}
    (hhead : ((lexicon.skipChoice form).ends p).head? = some next) :
    ∃ n, lexicon.dropLength? p.rest = some n ∧ dropBytes? p.rest n = some next.rest := by
  have hstart := h.head?_ends_skipChoice p
  rw [hhead, Option.map_some, Option.map_eq_some_iff] at hstart
  obtain ⟨q, hq, hrest⟩ := hstart
  obtain ⟨word, hword, hpassed⟩ := Regex.reaches_of_mem_ends (List.mem_of_head? hq)
  refine ⟨q.passed, ?_, ?_⟩
  · rw [h.dropLength?_eq, hq]
    rfl
  · simp only at hword hpassed
    rw [hpassed, hword, Nat.zero_add, dropBytes?_byteLength_append, hrest]

/-- Greedy rounds of the choice drop one token after the other. -/
theorem exists_rounds {n : Nat} {p : Cursor} (hn : p.rest.length ≤ n) :
    ∃ q, (Regex.anyNumber (lexicon.skipChoice form).ends true n p).head? = some q ∧
      Regex.Reaches p q ∧ lexicon.Drops p.rest q.rest := by
  have hchoice := h.isPlain_skipChoice
  have hnil := h.ends_skipChoice_nil
  induction n generalizing p with
  | zero =>
    refine ⟨p, rfl, .refl p, .done (h.dropLength?_of_head?_eq_none ?_)⟩
    -- A round takes a character, and there is none.
    refine List.head?_eq_none_iff.2 (List.eq_nil_iff_forall_not_mem.2 fun next hnext => ?_)
    have hlt := Regex.length_lt_of_mem_ends hchoice hnil hnext
    omega
  | succ n ih =>
    rw [Regex.head?_anyNumber hchoice hnil]
    cases hhead : ((lexicon.skipChoice form).ends p).head? with
    | none => exact ⟨p, rfl, .refl p, .done (h.dropLength?_of_head?_eq_none hhead)⟩
    | some next =>
      have hnext := List.mem_of_head? hhead
      have hlt := Regex.length_lt_of_mem_ends hchoice hnil hnext
      obtain ⟨q, hq, hreaches, hdrops⟩ := @ih next (by omega)
      obtain ⟨k, hlength, hrest⟩ := h.dropLength?_of_head? hhead
      exact ⟨q, hq, (Regex.reaches_of_mem_ends hnext).trans hreaches, .step hlength hrest hdrops⟩

/-- The matcher for runs finds what one or more rounds of the choice prefer. -/
theorem find_skip (hne : lexicon.skipped ≠ []) (text : Text) :
    lexicon.skip.bind (Engine.find · text) =
      ((Regex.repeat (lexicon.skipChoice form) 1 none true).ends ⟨0, none, text⟩).head?.map
        fun q => ⟨0, q.passed⟩ := by
  rcases compileSkip_ok_iff.1 h.compiled with ⟨hnil, -⟩ | ⟨-, m, hread, hskip⟩
  · exact absurd (List.map_eq_nil_iff.1 hnil) hne
  · rw [hskip]
    exact (h.run hne m hread text).trans (Regex.leftmost_seq_textStart _ text)

/-- The run at the front of a text takes the tokens that are dropped one after the other. -/
theorem exists_run (text : Text) :
    ∃ gap rest, text = gap ++ rest ∧ lexicon.Drops text rest ∧
      lexicon.skipLength text = byteLength gap := by
  by_cases hne : lexicon.skipped = []
  · have hskip : lexicon.skip = none := by
      have hcompiled := h.compiled
      rw [hne] at hcompiled
      exact (Except.ok.inj hcompiled).symm
    refine ⟨[], text, rfl, .done ?_, by rw [skipLength, hskip]; rfl⟩
    rw [dropLength?, hne]
    rfl
  · have hfind := h.find_skip hne text
    rw [Regex.head?_ends_oneOrMore] at hfind
    rw [skipLength, hfind]
    cases hhead : ((lexicon.skipChoice form).ends ⟨0, none, text⟩).head? with
    | none => exact ⟨[], text, rfl, .done (h.dropLength?_of_head?_eq_none hhead), rfl⟩
    | some next =>
      obtain ⟨n, hlength, hrest⟩ := h.dropLength?_of_head? hhead
      obtain ⟨q, hq, hreaches, hdrops⟩ := h.exists_rounds (Nat.le_refl next.rest.length)
      have hfirst := Regex.reaches_of_mem_ends (List.mem_of_head? hhead)
      obtain ⟨gap, hgap, hpassed⟩ := hfirst.trans hreaches
      refine ⟨gap, q.rest, hgap, .step hlength hrest hdrops, ?_⟩
      rw [Option.bind_some, hq]
      simpa using hpassed

/-- Whatever engine keeps the order of some form of the rules, tokens are passed over in one run as
they are one after the other. -/
theorem skipLength_eq (text : Text) :
    ∃ gap rest, text = gap ++ rest ∧ (∀ last, lexicon.Drops text last ↔ last = rest) ∧
      lexicon.skipLength text = byteLength gap ∧ lexicon.skipLength rest = 0 ∧
      ∀ kind ∈ lexicon.skipped, kind.matchLength rest = none := by
  obtain ⟨gap, rest, htext, hdrops, hlength⟩ := h.exists_run text
  have hnone := hdrops.dropLength?_last
  refine ⟨gap, rest, htext, fun last => ⟨hdrops.unique, fun hlast => hlast ▸ hdrops⟩, hlength,
    ?_, ?_⟩
  · -- Behind the run nothing can be dropped, so the next run is empty.
    obtain ⟨gap', rest', hrest, hdrops', hlength'⟩ := h.exists_run rest
    obtain rfl : rest' = rest := (Drops.done hnone).unique hdrops'
    have hgap : gap' = [] := by simpa using hrest
    rw [hlength', hgap]
    rfl
  · intro kind hkind
    exact (h.kinds kind hkind).matchLength_eq_none
      (List.findSome?_eq_none_iff.1 hnone kind hkind)

end KeepsOrder

/-- The engine of this library keeps the order of patterns as they are written where it finds them
leftmost first and the parts of the rules are complete on their own. -/
theorem keepsOrder_of_leftmostFirst {lexicon : Lexicon} {definitions : List KindDefinition}
    (hbuild : build definitions = .ok lexicon)
    (hplain : ∀ kind ∈ lexicon.skipped, kind.rule.isPlain = true)
    (horder : ∀ kind ∈ lexicon.skipped, Regex.LeftmostFirst kind.rule.anchored)
    (hrun : Regex.LeftmostFirst (runPattern (lexicon.skipped.map (·.rule.body)))) :
    lexicon.KeepsOrder Rule.form := by
  have hcompiled : ∀ kind ∈ lexicon.skipped, kind.Compiled := fun kind hkind =>
    compiled_of_mem hbuild (List.mem_filter.1 hkind).1
  have hwritten : ∀ kind ∈ lexicon.skipped, ∀ p ∈ kind.rule.parts, (Regex.written? p).isSome :=
    fun kind hkind => Rule.written?_isSome (hplain kind hkind)
  have hclosed : ∀ kind ∈ lexicon.skipped, Closed kind.rule.body kind.rule.lexemes := by
    intro kind hkind
    obtain ⟨r, hread, _⟩ := Matcher.read_ok (hcompiled kind hkind).read
    exact Rule.closed_body hread (Rule.lexemes?_isSome (hwritten kind hkind))
  refine ⟨fun kind hkind => ⟨hcompiled kind hkind, Rule.isPlain_form (hplain kind hkind), ?_⟩,
    compileSkip_skipped hbuild, fun hne => ?_⟩
  · exact (horder kind hkind).findsLeftmost
      (Rule.written?_anchored (hclosed kind hkind) (hwritten kind hkind))
  · have hrules : lexicon.skipped.map (·.rule) ≠ [] := by simpa using hne
    have hform := written?_runPattern hrules (List.forall_mem_map.2 hclosed)
      (List.forall_mem_map.2 hwritten)
    simp only [List.map_map] at hform
    exact hrun.findsLeftmost hform

/-- The kinds that are passed over are passed over in one run as they are one after the other: the
run is as long as the tokens that are dropped, and behind it there is nothing more to pass over. -/
theorem skip_kind_by_kind {lexicon : Lexicon} {definitions : List KindDefinition}
    (hbuild : build definitions = .ok lexicon)
    (hplain : ∀ kind ∈ lexicon.skipped, kind.rule.isPlain = true)
    (horder : ∀ kind ∈ lexicon.skipped, Regex.LeftmostFirst kind.rule.anchored)
    (hrun : Regex.LeftmostFirst (runPattern (lexicon.skipped.map (·.rule.body)))) (text : Text) :
    ∃ gap rest, text = gap ++ rest ∧ (∀ last, lexicon.Drops text last ↔ last = rest) ∧
      lexicon.skipLength text = byteLength gap ∧ lexicon.skipLength rest = 0 ∧
      ∀ kind ∈ lexicon.skipped, kind.matchLength rest = none :=
  (keepsOrder_of_leftmostFirst hbuild hplain horder hrun).skipLength_eq text

/-- Blanks and remarks are passed over up to the end of the line. -/
theorem skip_kind_by_kind_remark :
    ∃ definitions lexicon, build definitions = .ok lexicon ∧
      lexicon.skipped.map (·.name) = ["BLANK", "REMARK"] ∧
      ∃ gap rest, " #x\n1".toList = gap ++ rest ∧
        (∀ last, lexicon.Drops " #x\n1".toList last ↔ last = rest) ∧
        lexicon.skipLength " #x\n1".toList = byteLength gap ∧ lexicon.skipLength rest = 0 ∧
        ∀ kind ∈ lexicon.skipped, kind.matchLength rest = none := by
  let definitions : List KindDefinition := [
    { name := "BLANK", rule := .pattern "[ \\t]+".toList, flags := { skipped := true } },
    { name := "REMARK", rule := .pattern "#[^\\n]*".toList, flags := { skipped := true } },
    { name := "NUMBER", rule := .pattern "[0-9]+".toList }]
  have hblank : Regex.LeftmostFirst (Rule.pattern "[ \\t]+".toList).anchored :=
    Regex.leftmostFirst_of_read rfl rfl rfl rfl
  have hremark : Regex.LeftmostFirst (Rule.pattern "#[^\\n]*".toList).anchored :=
    Regex.leftmostFirst_of_read rfl rfl rfl rfl
  have hrun : Regex.LeftmostFirst (runPattern ["[ \\t]+".toList, "#[^\\n]*".toList]) :=
    Regex.leftmostFirst_of_read rfl rfl rfl rfl
  refine ⟨definitions, _, rfl, rfl, ?_⟩
  refine @skip_kind_by_kind _ definitions rfl ?_ ?_ hrun _
  · exact List.forall_mem_cons.2 ⟨rfl, List.forall_mem_singleton.2 rfl⟩
  · exact List.forall_mem_cons.2 ⟨hblank, List.forall_mem_singleton.2 hremark⟩

end Lexicon

end PredictiveParsing
