import Mathlib.Logic.Basic
import PredictiveParsing.Lexicon.Builder

/-!
# Building lexicons

Definitions are compiled one by one, each under the names of those before it, and the first that has
a fault ends this. What has been compiled up to then numbers the kinds by their places, keeps the
same numbers by name, and keeps the patterns of the kinds that are passed over.

All of this holds whatever engine compiles the patterns.

* `KindDefinition.Fault`: the fault of a definition, the first that is found in it.
* `Draft.add_holds`, `Draft.add_fault`: one definition; `Draft.addAll_cases`: many.
* `Lexicon.build_error_iff`, `Builder.build_exact`: whole lexicons.
-/

namespace PredictiveParsing

variable {M : Type} [Engine M]

/-! ## Faults -/

/-- A definition that makes a kind: its text is not empty, and its expression can be read and does
not match the empty text. -/
structure KindDefinition.Compiles (M : Type) [Engine M] (d : KindDefinition) : Prop where
  fixedText : d.rule.fixedText ≠ some []
  read : ∃ matcher : M, Engine.read d.rule.anchored = .ok matcher ∧ Engine.find matcher [] = none

/-- The fault of a definition that comes behind definitions with the given names. A name that is
taken is found before an empty text, and this before an expression that cannot be read or that
matches the empty text. -/
inductive KindDefinition.Fault (M : Type) [Engine M] (earlier : List String) (d : KindDefinition) :
    LexiconError → Prop
  | duplicateName (hname : d.name ∈ earlier) : d.Fault M earlier (.duplicateName d.name)
  | emptyLiteral (hname : d.name ∉ earlier) (htext : d.rule.fixedText = some []) :
    d.Fault M earlier (.emptyLiteral d.name)
  | invalidPattern (hname : d.name ∉ earlier) (htext : d.rule.fixedText ≠ some [])
    {cause : PatternError} (hread : (Engine.read d.rule.anchored : Except _ M) = .error cause) :
    d.Fault M earlier (.invalidPattern d.name cause)
  | matchesEmpty (hname : d.name ∉ earlier) (htext : d.rule.fixedText ≠ some [])
    {matcher : M} (hread : Engine.read d.rule.anchored = .ok matcher)
    (hempty : (Engine.find matcher []).isSome = true) : d.Fault M earlier (.matchesEmpty d.name)

/-- Definitions without a fault: no name is taken twice, and each of them makes a kind. -/
structure Faultless (M : Type) [Engine M] (definitions : List KindDefinition) : Prop where
  nodup : (definitions.map (·.name)).Nodup
  compiles : ∀ d ∈ definitions, d.Compiles M

namespace KindDefinition

variable {earlier : List String} {d : KindDefinition} {e : LexiconError}

theorem compiles_or_fault (M : Type) [Engine M] (earlier : List String) (d : KindDefinition) :
    d.name ∉ earlier ∧ d.Compiles M ∨ ∃ e, d.Fault M earlier e := by
  by_cases hname : d.name ∈ earlier
  · exact Or.inr ⟨_, .duplicateName hname⟩
  by_cases htext : d.rule.fixedText = some []
  · exact Or.inr ⟨_, .emptyLiteral hname htext⟩
  cases hread : (Engine.read d.rule.anchored : Except PatternError M) with
  | error cause => exact Or.inr ⟨_, .invalidPattern hname htext hread⟩
  | ok matcher =>
    cases hempty : Engine.find matcher [] with
    | none => exact Or.inl ⟨hname, htext, matcher, hread, hempty⟩
    | some found => exact Or.inr ⟨_, .matchesEmpty hname htext hread (by rw [hempty]; rfl)⟩

theorem Fault.not_compiles (h : d.Fault M earlier e) (hname : d.name ∉ earlier) :
    ¬ d.Compiles M := by
  rintro ⟨htext, matcher, hread, hempty⟩
  cases h with
  | duplicateName hname' => exact hname hname'
  | emptyLiteral _ htext' => exact htext htext'
  | invalidPattern _ _ hread' => cases hread.symm.trans hread'
  | matchesEmpty _ _ hread' hempty' =>
    cases hread.symm.trans hread'
    rw [hempty] at hempty'
    cases hempty'

end KindDefinition

namespace Faultless

variable {before after : List KindDefinition} {d : KindDefinition} {e : LexiconError}

theorem nil : Faultless M [] := ⟨List.nodup_nil, fun _ h => absurd h List.not_mem_nil⟩

theorem append_singleton (h : Faultless M before) (hname : d.name ∉ before.map (·.name))
    (hd : d.Compiles M) : Faultless M (before ++ [d]) := by
  refine ⟨?_, List.forall_mem_append.2 ⟨h.compiles, List.forall_mem_singleton.2 hd⟩⟩
  rw [List.map_append, List.nodup_append]
  refine ⟨h.nodup, List.pairwise_singleton _ _, ?_⟩
  rintro name hmem _ hd rfl
  rw [List.map_singleton, List.mem_singleton] at hd
  exact hname (hd ▸ hmem)

/-- Definitions with a fault among them are not without a fault. -/
theorem not_fault (h : Faultless M (before ++ d :: after)) :
    ¬ d.Fault M (before.map (·.name)) e := by
  intro hfault
  have hnodup := h.nodup
  rw [List.map_append, List.nodup_append] at hnodup
  refine hfault.not_compiles (fun hmem => ?_) (h.compiles d (by simp))
  exact hnodup.2.2 _ hmem _ (List.mem_cons_self) rfl

end Faultless

/-! ## Drafts -/

/-- What is known of a kind that has been compiled: its matcher is that of its rule, and it does not
match the empty text. -/
structure Kind.Compiled (kind : Kind M) : Prop where
  read : Engine.read kind.rule.anchored = .ok kind.matcher
  find_nil : Engine.find kind.matcher [] = none

namespace Lexicon

/-- The patterns of the definitions that are to be passed over. -/
def skipBodies (definitions : List KindDefinition) : List Text :=
  (definitions.filter (·.flags.skipped)).map (·.rule.body)

/-- A draft holds what has been compiled of some definitions without a fault. -/
structure Draft.Holds (draft : Draft M) (definitions : List KindDefinition) : Prop
    extends Faultless M definitions where
  definitions_eq : draft.kinds.map (·.toKindDefinition) = definitions
  ids : draft.kinds.map (·.id) = (List.range definitions.length).map KindId.ofIndex
  numbers : draft.numbers = draft.kinds.map fun kind => (kind.name, kind.id)
  skipBodies : draft.skipBodies = Lexicon.skipBodies definitions
  compiled : ∀ kind ∈ draft.kinds, kind.Compiled

namespace Draft

variable {draft : Draft M} {definitions : List KindDefinition} {d : KindDefinition}

namespace Holds

theorem nil : ({} : Draft M).Holds [] :=
  ⟨.nil, rfl, rfl, rfl, rfl, fun _ h => absurd h List.not_mem_nil⟩

theorem length_kinds (h : draft.Holds definitions) : draft.kinds.length = definitions.length := by
  rw [← h.definitions_eq, List.length_map]

theorem map_fst_numbers (h : draft.Holds definitions) :
    draft.numbers.map Prod.fst = definitions.map (·.name) := by
  rw [h.numbers, ← h.definitions_eq, List.map_map, List.map_map]
  rfl

theorem isSome_lookup_iff (h : draft.Holds definitions) (name : String) :
    (draft.numbers.lookup name).isSome = true ↔ name ∈ definitions.map (·.name) := by
  rw [← h.map_fst_numbers, List.lookup_isSome_iff, List.mem_map]
  simp only [beq_iff_eq]
  exact exists_congr fun pair => and_congr_right fun _ => eq_comm

theorem push (h : draft.Holds definitions) {kind : Kind M}
    (hid : kind.id = .ofIndex definitions.length) (hkind : kind.Compiled)
    (hall : Faultless M (definitions ++ [kind.toKindDefinition])) :
    (draft.push kind).Holds (definitions ++ [kind.toKindDefinition]) where
  toFaultless := hall
  definitions_eq := by
    rw [Draft.push, List.map_append, h.definitions_eq, List.map_singleton]
  ids := by
    rw [Draft.push, List.map_append, h.ids, List.length_append, List.length_singleton,
      List.range_succ, List.map_append, List.map_singleton, List.map_singleton, hid]
  numbers := by
    rw [Draft.push, h.numbers, List.map_append, List.map_singleton]
  skipBodies := by
    rw [Draft.push, h.skipBodies, Lexicon.skipBodies, Lexicon.skipBodies, List.filter_append,
      List.map_append]
    cases hskipped : kind.flags.skipped <;> simp [hskipped]
  compiled := List.forall_mem_append.2 ⟨h.compiled, List.forall_mem_singleton.2 hkind⟩

end Holds

theorem add_holds (h : draft.Holds definitions) (hname : d.name ∉ definitions.map (·.name))
    (hd : d.Compiles M) :
    ∃ draft', draft.add d = .ok draft' ∧ draft'.Holds (definitions ++ [d]) := by
  have ⟨htext, matcher, hread, hempty⟩ := hd
  have hfree := mt (h.isSome_lookup_iff d.name).1 hname
  let kind : Kind M := { d with id := .ofIndex draft.kinds.length, matcher }
  have hid : kind.id = .ofIndex definitions.length := congrArg KindId.ofIndex h.length_kinds
  refine ⟨draft.push kind, ?_, h.push hid ⟨hread, hempty⟩ (h.toFaultless.append_singleton hname hd)⟩
  rw [add, if_neg hfree, if_neg htext, hread]
  simp only [hempty, Option.isSome_none, Bool.false_eq_true, if_false]
  rfl

theorem add_fault (h : draft.Holds definitions) {e : LexiconError}
    (hfault : d.Fault M (definitions.map (·.name)) e) : draft.add d = .error e := by
  have hfree := h.isSome_lookup_iff d.name
  cases hfault with
  | duplicateName hname => rw [add, if_pos (hfree.2 hname)]
  | emptyLiteral hname htext => rw [add, if_neg (mt hfree.1 hname), if_pos htext]
  | invalidPattern hname htext hread =>
    rw [add, if_neg (mt hfree.1 hname), if_neg htext, hread]
  | matchesEmpty hname htext hread hempty =>
    rw [add, if_neg (mt hfree.1 hname), if_neg htext, hread]
    simp only [hempty, if_true]

/-- Definitions are compiled, or the first of them that has a fault ends this with it. -/
theorem addAll_cases (h : draft.Holds definitions) (more : List KindDefinition) :
    (∃ draft', draft.addAll more = .ok draft' ∧ draft'.Holds (definitions ++ more)) ∨
    ∃ before d after e, more = before ++ d :: after ∧ Faultless M (definitions ++ before) ∧
      d.Fault M ((definitions ++ before).map (·.name)) e ∧ draft.addAll more = .error e := by
  induction more generalizing draft definitions with
  | nil => exact Or.inl ⟨draft, rfl, by rwa [List.append_nil]⟩
  | cons d more ih =>
    rcases d.compiles_or_fault M (definitions.map (·.name)) with ⟨hname, hd⟩ | ⟨e, hfault⟩
    · obtain ⟨draft', hadd, hholds⟩ := add_holds h hname hd
      have hrun : draft.addAll (d :: more) = draft'.addAll more := by
        rw [addAll, hadd]
        rfl
      rw [hrun]
      rcases ih hholds with ⟨last, hlast, hall⟩ | ⟨before, d', after, e, rfl, hbefore, hfault, he⟩
      · exact Or.inl ⟨last, hlast, by rwa [List.append_assoc] at hall⟩
      · rw [List.append_assoc] at hbefore hfault
        exact Or.inr ⟨d :: before, d', after, e, rfl, hbefore, hfault, he⟩
    · refine Or.inr ⟨[], d, more, e, rfl, ?_, ?_, ?_⟩
      · rw [List.append_nil]
        exact h.toFaultless
      · rwa [List.append_nil]
      · rw [addAll, add_fault h hfault]
        rfl

theorem addAll_of_faultless (h : draft.Holds definitions) {more : List KindDefinition}
    (hall : Faultless M (definitions ++ more)) :
    ∃ draft', draft.addAll more = .ok draft' ∧ draft'.Holds (definitions ++ more) := by
  rcases addAll_cases h more with hok | ⟨before, d, after, e, rfl, -, hfault, -⟩
  · exact hok
  · rw [← List.append_assoc] at hall
    exact absurd hfault hall.not_fault

theorem addAll_append (draft : Draft M) (a b : List KindDefinition) :
    draft.addAll (a ++ b) = (draft.addAll a).bind fun draft' => draft'.addAll b := by
  induction a generalizing draft with
  | nil => rfl
  | cons d a ih =>
    rw [List.cons_append, addAll, addAll]
    cases draft.add d with
    | error e => rfl
    | ok draft' => exact ih draft'

end Draft

/-! ## Lexicons -/

/-- The first of some definitions that has a fault has this one. -/
def FirstFault (M : Type) [Engine M] (definitions : List KindDefinition) (e : LexiconError) :
    Prop :=
  ∃ before d after, definitions = before ++ d :: after ∧ Faultless M before ∧
    d.Fault M (before.map (·.name)) e

/-- The joined patterns of the definitions that are to be passed over cannot be read. -/
def SkipFault (M : Type) [Engine M] (definitions : List KindDefinition) (e : LexiconError) : Prop :=
  skipBodies definitions ≠ [] ∧ ∃ cause,
    (Engine.read (runPattern (skipBodies definitions)) : Except _ M) = .error cause ∧
      e = .invalidPattern skipName cause

variable {definitions : List KindDefinition} {lexicon : Lexicon M} {e : LexiconError}

theorem compileSkip_ok_iff {bodies : List Text} {skip : Option M} :
    compileSkip bodies = .ok skip ↔ bodies = [] ∧ skip = none ∨
      bodies ≠ [] ∧ ∃ matcher : M, Engine.read (runPattern bodies) = .ok matcher ∧
        skip = some matcher := by
  cases bodies with
  | nil => simp [compileSkip, eq_comm]
  | cons body bodies =>
    rw [compileSkip]
    cases (Engine.read (runPattern (body :: bodies)) : Except _ M) <;> simp [eq_comm]

theorem exists_compileSkip_iff {bodies : List Text} :
    (∃ skip : Option M, compileSkip bodies = .ok skip) ↔
      (bodies ≠ [] → ∃ matcher : M, Engine.read (runPattern bodies) = .ok matcher) := by
  simp only [compileSkip_ok_iff]
  constructor
  · rintro ⟨skip, ⟨hnil, -⟩ | ⟨-, matcher, hread, -⟩⟩ hne
    · exact absurd hnil hne
    · exact ⟨matcher, hread⟩
  · intro h
    by_cases hnil : bodies = []
    · exact ⟨none, Or.inl ⟨hnil, rfl⟩⟩
    · obtain ⟨matcher, hread⟩ := h hnil
      exact ⟨some matcher, Or.inr ⟨hnil, matcher, hread, rfl⟩⟩

theorem compileSkip_error_iff :
    (compileSkip (skipBodies definitions) : Except _ (Option M)) = .error e ↔
      SkipFault M definitions e := by
  rw [SkipFault]
  cases skipBodies definitions with
  | nil => simp [compileSkip]
  | cons body bodies =>
    rw [compileSkip]
    cases (Engine.read (runPattern (body :: bodies)) : Except _ M) <;> simp [eq_comm]

theorem faultless_or_firstFault (M : Type) [Engine M] (definitions : List KindDefinition) :
    Faultless M definitions ∨ ∃ e, FirstFault M definitions e := by
  rcases Draft.addAll_cases (Draft.Holds.nil (M := M)) definitions with
    ⟨draft, -, h⟩ | ⟨before, d, after, e, hdefinitions, hbefore, hfault, -⟩
  · exact Or.inl h.toFaultless
  · exact Or.inr ⟨e, before, d, after, hdefinitions, hbefore, hfault⟩

theorem build_of_firstFault (h : FirstFault M definitions e) :
    (build definitions : Except _ (Lexicon M)) = .error e := by
  obtain ⟨before, d, after, rfl, hbefore, hfault⟩ := h
  obtain ⟨draft, hdraft, hholds⟩ := Draft.addAll_of_faultless Draft.Holds.nil hbefore
  have hstop : draft.addAll (d :: after) = .error e := by
    rw [Draft.addAll, Draft.add_fault hholds hfault]
    rfl
  have hrun : ({} : Draft M).addAll (before ++ d :: after) = .error e := by
    rw [Draft.addAll_append, hdraft]
    exact hstop
  rw [build, hrun]
  rfl

theorem build_of_faultless (h : Faultless M definitions) :
    ∃ draft : Draft M, draft.Holds definitions ∧
      build definitions = (compileSkip (skipBodies definitions)).map fun skip =>
        { kinds := draft.kinds, numbers := draft.numbers, skip } := by
  obtain ⟨draft, hdraft, hholds⟩ := Draft.addAll_of_faultless Draft.Holds.nil h
  refine ⟨draft, hholds, ?_⟩
  have hbodies : draft.skipBodies = skipBodies definitions := hholds.skipBodies
  rw [build, hdraft, ← hbodies]
  rfl

/-- What is known of a lexicon that has been built. -/
theorem build_ok (h : build definitions = .ok lexicon) :
    (∃ draft : Draft M, draft.Holds definitions ∧ draft.kinds = lexicon.kinds ∧
      draft.numbers = lexicon.numbers) ∧
    compileSkip (skipBodies definitions) = .ok lexicon.skip := by
  rcases faultless_or_firstFault M definitions with hall | ⟨e, hfault⟩
  · obtain ⟨draft, hholds, hbuild⟩ := build_of_faultless hall
    rw [h] at hbuild
    cases hskip : (compileSkip (skipBodies definitions) : Except _ (Option M)) with
    | error e =>
      rw [hskip] at hbuild
      cases hbuild
    | ok skip =>
      rw [hskip] at hbuild
      cases hbuild
      exact ⟨⟨draft, hholds, rfl, rfl⟩, rfl⟩
  · cases h.symm.trans (build_of_firstFault hfault)

theorem compiled_of_mem (h : build definitions = .ok lexicon) {kind : Kind M}
    (hkind : kind ∈ lexicon.kinds) : kind.Compiled := by
  obtain ⟨⟨draft, hholds, hkinds, -⟩, -⟩ := build_ok h
  exact hholds.compiled kind (hkinds ▸ hkind)

/-- A lexicon is built exactly if no definition has a fault and the joined patterns can be read. -/
theorem exists_build_iff :
    (∃ lexicon : Lexicon M, build definitions = .ok lexicon) ↔ Faultless M definitions ∧
      ∃ skip : Option M, compileSkip (skipBodies definitions) = .ok skip := by
  constructor
  · rintro ⟨lexicon, h⟩
    obtain ⟨⟨draft, hholds, -, -⟩, hskip⟩ := build_ok h
    exact ⟨hholds.toFaultless, _, hskip⟩
  · rintro ⟨hall, skip, hskip⟩
    obtain ⟨draft, -, hbuild⟩ := build_of_faultless hall
    rw [hskip] at hbuild
    exact ⟨_, hbuild⟩

/-- The error is the fault of the first definition that has one or, if none has, that of the joined
patterns. -/
theorem build_error_iff :
    (build definitions : Except _ (Lexicon M)) = .error e ↔
      FirstFault M definitions e ∨ Faultless M definitions ∧ SkipFault M definitions e := by
  constructor
  · intro h
    rcases faultless_or_firstFault M definitions with hall | ⟨e', hfault⟩
    · obtain ⟨draft, -, hbuild⟩ := build_of_faultless hall
      rw [h] at hbuild
      cases hskip : (compileSkip (skipBodies definitions) : Except _ (Option M)) with
      | ok skip =>
        rw [hskip] at hbuild
        cases hbuild
      | error e' =>
        rw [hskip] at hbuild
        cases hbuild
        exact Or.inr ⟨hall, compileSkip_error_iff.1 hskip⟩
    · cases h.symm.trans (build_of_firstFault hfault)
      exact Or.inl hfault
  · rintro (hfault | ⟨hall, hskip⟩)
    · exact build_of_firstFault hfault
    · obtain ⟨draft, -, hbuild⟩ := build_of_faultless hall
      rw [hbuild, compileSkip_error_iff.2 hskip]
      rfl

/-! ## Looking up -/

theorem Draft.Holds.id_eq {draft : Draft M} (h : draft.Holds definitions)
    (hcount : definitions.length < KindId.eof.index) {id : KindId} {kind : Kind M}
    (hkind : draft.kinds[id.index]? = some kind) : kind.id = id := by
  obtain ⟨hlt, -⟩ := List.getElem?_eq_some_iff.1 hkind
  rw [h.length_kinds] at hlt
  have hid := congrArg (·[id.index]?) h.ids
  simp only [List.getElem?_map, hkind, List.getElem?_range hlt, Option.map_some,
    Option.some.injEq] at hid
  have heof : KindId.eof.index < offsetLimit := by decide
  rw [hid, KindId.ofIndex, narrow, if_pos (by omega)]

/-- Where no key comes twice, each key is looked up with its value. -/
theorem lookup_eq_some_iff_mem {α β : Type} [DecidableEq α] {pairs : List (α × β)}
    (h : (pairs.map Prod.fst).Nodup) {a : α} {b : β} :
    pairs.lookup a = some b ↔ (a, b) ∈ pairs := by
  rw [List.lookup_eq_some_iff]
  constructor
  · rintro ⟨before, after, rfl, -⟩
    exact List.mem_append_right before List.mem_cons_self
  · intro hmem
    obtain ⟨before, after, rfl⟩ := List.append_of_mem hmem
    refine ⟨before, after, rfl, fun pair hpair => ?_⟩
    rw [List.map_append, List.nodup_append] at h
    rw [bne_iff_ne]
    exact (h.2.2 _ (List.mem_map_of_mem hpair) _ List.mem_cons_self).symm

theorem lookup_eq_some_iff_get? (h : build definitions = .ok lexicon)
    (hcount : definitions.length < KindId.eof.index) {name : String} {id : KindId} :
    lexicon.lookup name = some id ↔ ∃ kind, lexicon.get? id = some kind ∧ kind.name = name := by
  obtain ⟨⟨draft, hholds, hkinds, hnumbers⟩, -⟩ := build_ok h
  have hnodup := hholds.nodup
  rw [← hholds.map_fst_numbers] at hnodup
  rw [lookup, get?, ← hkinds, ← hnumbers, lookup_eq_some_iff_mem hnodup, hholds.numbers,
    List.mem_map]
  constructor
  · rintro ⟨kind, hkind, hpair⟩
    obtain ⟨rfl, rfl⟩ := Prod.mk.inj hpair
    obtain ⟨i, hi⟩ := List.mem_iff_getElem?.1 hkind
    have hid : kind.id = ⟨i⟩ := hholds.id_eq hcount hi
    rw [hid]
    exact ⟨kind, hi, rfl⟩
  · rintro ⟨kind, hkind, rfl⟩
    refine ⟨kind, List.mem_of_getElem? hkind, ?_⟩
    rw [hholds.id_eq hcount hkind]

theorem hasSkip_iff (h : build definitions = .ok lexicon) :
    lexicon.hasSkip = true ↔ ∃ d ∈ definitions, d.flags.skipped = true := by
  have hbodies : skipBodies definitions ≠ [] ↔ ∃ d ∈ definitions, d.flags.skipped = true := by
    rw [skipBodies, ne_eq, List.map_eq_nil_iff, List.filter_eq_nil_iff]
    simp only [not_forall, not_not, exists_prop]
  rw [← hbodies, hasSkip]
  rcases compileSkip_ok_iff.1 (build_ok h).2 with ⟨hnil, hskip⟩ | ⟨hne, matcher, -, hskip⟩
  · rw [hskip, hnil]
    simp
  · rw [hskip]
    exact iff_of_true rfl hne

end Lexicon

/-! ## Builders -/

namespace Builder

open Lexicon

variable {definitions : List KindDefinition}

theorem defineAll_eq (builder : Builder) (definitions : List KindDefinition) :
    builder.defineAll definitions =
      ((List.range' builder.definitions.length definitions.length).map KindId.ofIndex,
        ⟨builder.definitions ++ definitions⟩) := by
  induction definitions generalizing builder with
  | nil => rw [defineAll, List.append_nil]; rfl
  | cons d definitions ih =>
    rw [defineAll, define]
    simp only [ih, List.length_append, List.length_cons, List.length_nil, Nat.zero_add,
      List.range'_succ, List.map_cons, List.append_assoc, List.singleton_append]

theorem build_eq (hcount : definitions.length < KindId.eof.index) :
    (build ⟨definitions⟩ : Except _ (Lexicon M)) = (Lexicon.build definitions).mapError .fault := by
  have hindex : (KindId.ofIndex definitions.length).index = definitions.length := by
    have heof : KindId.eof.index < offsetLimit := by decide
    rw [KindId.ofIndex, narrow, if_pos (by omega)]
  have hfree : (KindId.ofIndex definitions.length).isReserved = false := by
    rw [KindId.isReserved, hindex, decide_eq_false_iff_not]
    omega
  rw [build]
  simp only [hfree, Bool.false_eq_true, if_false]

theorem build_ok_iff (hcount : definitions.length < KindId.eof.index) {lexicon : Lexicon M} :
    build ⟨definitions⟩ = .ok lexicon ↔ Lexicon.build definitions = .ok lexicon := by
  rw [build_eq hcount]
  constructor
  · intro h
    cases hbuild : (Lexicon.build definitions : Except _ (Lexicon M)) with
    | error fault =>
      rw [hbuild] at h
      cases h
    | ok built =>
      rw [hbuild] at h
      exact congrArg Except.ok (Except.ok.inj h)
  · intro h
    rw [h]
    rfl

theorem build_error_iff (hcount : definitions.length < KindId.eof.index) {e : BuildError} :
    (build ⟨definitions⟩ : Except _ (Lexicon M)) = .error e ↔
      ∃ fault, e = .fault fault ∧
        (Lexicon.build definitions : Except _ (Lexicon M)) = .error fault := by
  rw [build_eq hcount]
  constructor
  · intro h
    cases hbuild : (Lexicon.build definitions : Except _ (Lexicon M)) with
    | error fault =>
      rw [hbuild] at h
      exact ⟨fault, (Except.error.inj h).symm, rfl⟩
    | ok lexicon =>
      rw [hbuild] at h
      cases h
  · rintro ⟨fault, rfl, hbuild⟩
    rw [hbuild]
    rfl

/-- Whatever engine compiles the patterns, definitions for which there are numbers make a lexicon
exactly if none of them has a fault and the joined patterns of those that are passed over can be
read. Else the error is the fault of the first definition that has one and, only if none has, that
of the joined patterns. In the lexicon the kinds have the numbers that were handed out, by which
they are found, as they are by their names. -/
theorem build_exact {M : Type} [Engine M] {definitions : List KindDefinition}
    (h : definitions.length < KindId.eof.index) :
    let collected := defineAll {} definitions
    let result : Except BuildError (Lexicon M) := collected.2.build
    ((∃ lexicon, result = .ok lexicon) ↔ Faultless M definitions ∧
      (skipBodies definitions ≠ [] →
        ∃ matcher : M, Engine.read (runPattern (skipBodies definitions)) = .ok matcher)) ∧
    (∀ e, result = .error e ↔ ∃ fault, e = .fault fault ∧
      (FirstFault M definitions fault ∨ Faultless M definitions ∧ SkipFault M definitions fault)) ∧
    ∀ lexicon, result = .ok lexicon →
      lexicon.kinds.map (·.toKindDefinition) = definitions ∧
      lexicon.kinds.map (·.id) = collected.1 ∧
      (∀ id kind, lexicon.get? id = some kind → kind.id = id) ∧
      (∀ id, (lexicon.get? id).isSome = true ↔ id.index < definitions.length) ∧
      (∀ name id, lexicon.lookup name = some id ↔
        ∃ kind, lexicon.get? id = some kind ∧ kind.name = name) ∧
      (lexicon.hasSkip = true ↔ ∃ d ∈ definitions, d.flags.skipped = true) := by
  intro collected result
  have hcollected : collected =
      ((List.range' 0 definitions.length).map KindId.ofIndex, ⟨definitions⟩) :=
    defineAll_eq {} definitions
  have hresult : result = build ⟨definitions⟩ :=
    congrArg (fun c : List KindId × Builder => c.2.build) hcollected
  have hok (lexicon : Lexicon M) :
      result = .ok lexicon ↔ Lexicon.build definitions = .ok lexicon := by
    rw [hresult, build_ok_iff h]
  refine ⟨?_, fun e => ?_, fun lexicon hlexicon => ?_⟩
  · rw [exists_congr hok, exists_build_iff, exists_compileSkip_iff]
  · rw [hresult, build_error_iff h]
    exact exists_congr fun fault => and_congr_right fun _ => Lexicon.build_error_iff
  · have hbuild := (hok lexicon).1 hlexicon
    obtain ⟨⟨draft, hholds, hkinds, -⟩, -⟩ := build_ok hbuild
    refine ⟨hkinds ▸ hholds.definitions_eq, ?_, fun id kind hkind => ?_, fun id => ?_,
      fun name id => lookup_eq_some_iff_get? hbuild h, hasSkip_iff hbuild⟩
    · rw [hcollected, ← hkinds, hholds.ids, List.range_eq_range']
    · rw [get?, ← hkinds] at hkind
      exact hholds.id_eq h hkind
    · rw [get?, ← hkinds, isSome_getElem?, hholds.length_kinds]

/-- Numbers and blanks make a lexicon. Another definition of blanks has its name as its fault, also
where its text is empty. -/
theorem build_exact_blanks :
    let number : KindDefinition := { name := "NUMBER", rule := .pattern "[0-9]+".toList }
    let blank : KindDefinition :=
      { name := "BLANK", rule := .pattern " +".toList, flags := { skipped := true } }
    let again : KindDefinition := { name := "BLANK", rule := .literal [] }
    (∃ lexicon, (defineAll {} [number, blank]).2.build = .ok lexicon ∧
      lexicon.kinds.map (·.toKindDefinition) = [number, blank] ∧ lexicon.hasSkip = true ∧
      ∃ kind, lexicon.get? ⟨1⟩ = some kind ∧ kind.name = "BLANK") ∧
    Faultless Matcher [number, blank] ∧
    (defineAll {} [number, blank, again]).2.build = .error (.fault (.duplicateName "BLANK")) := by
  intro number blank again
  obtain ⟨hok, -, hlexicon⟩ :=
    @build_exact Matcher _ _ (show [number, blank].length < KindId.eof.index by decide)
  have hlookup : ((defineAll {} [number, blank]).2.build.toOption.bind (·.lookup "BLANK")) =
      some ⟨1⟩ := by decide +kernel
  obtain ⟨lexicon, hbuild⟩ : ∃ lexicon, (defineAll {} [number, blank]).2.build = .ok lexicon := by
    cases hresult : (defineAll {} [number, blank]).2.build with
    | ok lexicon => exact ⟨lexicon, rfl⟩
    | error e =>
      rw [hresult] at hlookup
      cases hlookup
  obtain ⟨hkinds, -, -, -, hnames, hskip⟩ := hlexicon lexicon hbuild
  have hfaultless := (hok.1 ⟨lexicon, hbuild⟩).1
  rw [hbuild] at hlookup
  refine ⟨⟨lexicon, hbuild, hkinds, hskip.2 ⟨blank, by decide, rfl⟩, (hnames _ _).1 hlookup⟩,
    hfaultless, ?_⟩
  obtain ⟨-, herror, -⟩ :=
    @build_exact Matcher _ _ (show [number, blank, again].length < KindId.eof.index by decide)
  refine (herror _).2 ⟨_, rfl, Or.inl ⟨[number, blank], again, [], rfl, hfaultless, ?_⟩⟩
  exact .duplicateName (by decide)

end Builder

end PredictiveParsing
