import PredictiveParsing.Regex.Ends
import PredictiveParsing.Regex.Search

/-!
# Threads find the first end

In solid code a search by threads gives what the list of ends says: the most preferred end. Ending a
thread where another one has been loses nothing, because places are ordered by a rank that falls
whenever a thread goes on without reading. A place met again is thus never one that is still being
gone on from, and all it leads to is known.

Where a round can be empty the two differ: threads end that the list would go on with.

* `adds_visit`: going on from a part adds the ends of the part and of what follows it.
* `firstEnd_ready`: the ready threads have the same first end as the threads they come from.
* `matchFrom_eq_head?`: in solid code the most preferred end is found.
-/

namespace PredictiveParsing

namespace Thread

/-! ## Ends of threads -/

/-- The ends of the matches of a thread, most preferred first. -/
def ends : Thread → Cursor → List Cursor
  | [], p => [p]
  | r :: rest, p => (r.ends p).flatMap (ends rest)

/-- The most preferred end of threads in order. -/
def firstEnd (p : Cursor) (threads : List Thread) : Option Cursor :=
  threads.findSome? fun t => (ends t p).head?

/-- What the places noted so far lead to. -/
def outcome (p : Cursor) (seen : List Thread) : Option Cursor :=
  firstEnd p (seen.reverse.filter isReady)

/-- How often a thread can go on at most without reading. -/
def rank : Thread → Nat
  | [] => 0
  | r :: rest => weight r + if r.consumes then 0 else rank rest
where
  /-- The share of one part in the rank. -/
  weight : Code → Nat
    | .seq r s | .fork _ r s => weight r + weight s + 1
    | .loop _ r _ => weight r + 1
    | _ => 1

/-- Every place of a rank below a bound has been gone on from: if nothing was found, it leads to
nothing. -/
def Settled (p : Cursor) (bound : Nat) (seen : List Thread) : Prop :=
  ∀ t ∈ seen, rank t < bound → outcome p seen = none → (ends t p).head? = none

/-- A step adds the ends of a thread, and notes places of no higher rank than that of the thread. -/
def Adds (p : Cursor) (step : List Thread → List Thread) (t : Thread) : Prop :=
  ∀ bound seen, rank t < bound → Settled p bound seen →
    Settled p bound (step seen) ∧
    outcome p (step seen) = (outcome p seen).or (ends t p).head? ∧
    ∀ u ∈ step seen, u ∈ seen ∨ rank u ≤ rank t

/-! ## Places that are gone on from -/

theorem ends_seq (r s : Code) (rest : Thread) (p : Cursor) :
    ends (.seq r s :: rest) p = ends (r :: s :: rest) p := by
  simp [ends, Code.ends, List.flatMap_assoc]

theorem ends_fork (label : Nat) (r s : Code) (rest : Thread) (p : Cursor) :
    ends (.fork label r s :: rest) p = ends (r :: rest) p ++ ends (s :: rest) p := by
  simp [ends, Code.ends]

theorem ends_loop {label : Nat} {r : Code} {greedy : Bool} (hr : r.consumes = true)
    (rest : Thread) (p : Cursor) :
    ends (.loop label r greedy :: rest) p =
      if greedy then ends (r :: .loop label r greedy :: rest) p ++ ends rest p
      else ends rest p ++ ends (r :: .loop label r greedy :: rest) p := by
  have hround : ends (r :: .loop label r greedy :: rest) p =
      ((r.ends p).flatMap (Code.loop label r greedy).ends).flatMap (ends rest) := by
    simp [ends, List.flatMap_assoc]
  rw [hround, ends, Code.ends_loop hr]
  cases greedy <;> simp

theorem outcome_cons (p : Cursor) (t : Thread) (seen : List Thread) :
    outcome p (t :: seen) =
      if isReady t then (outcome p seen).or (ends t p).head? else outcome p seen := by
  simp only [outcome, firstEnd, List.reverse_cons, List.filter_append]
  split
  · rename_i h
    rw [List.filter_cons_of_pos h, List.filter_nil, List.findSome?_append, List.findSome?_singleton]
  · rename_i h
    rw [List.filter_cons_of_neg h, List.filter_nil, List.append_nil]

theorem Settled.mono {p : Cursor} {b c : Nat} {seen : List Thread} (h : Settled p c seen)
    (hbc : b ≤ c) : Settled p b seen :=
  fun t ht hrank => h t ht (Nat.lt_of_lt_of_le hrank hbc)

/-- A place that is ready and not known yet is noted with its ends. -/
theorem adds_note {p : Cursor} {t : Thread} (ht : isReady t = true) : Adds p (note t) t := by
  intro bound seen hrank hsettled
  rw [note]
  split
  · rename_i hmem
    refine ⟨hsettled, ?_, fun u hu => .inl hu⟩
    cases h : outcome p seen with
    | none => rw [hsettled t hmem hrank h]; rfl
    | some q => rfl
  · have hout : outcome p (t :: seen) = (outcome p seen).or (ends t p).head? := by
      rw [outcome_cons, if_pos ht]
    refine ⟨?_, hout, ?_⟩
    · intro u hu hlt hnone
      rw [hout, Option.or_eq_none_iff] at hnone
      rcases List.mem_cons.1 hu with rfl | hu
      · exact hnone.2
      · exact hsettled u hu hlt hnone.1
    · intro u hu
      rcases List.mem_cons.1 hu with rfl | hu
      · exact .inr (Nat.le_refl _)
      · exact .inl hu

/-- A place from which a thread goes on by a step that adds its ends and notes lower places. -/
theorem adds_here {p : Cursor} {here : Thread} {step : List Thread → List Thread}
    (hready : isReady here = false)
    (hstep : ∀ seen, Settled p (rank here) seen →
      Settled p (rank here) (step seen) ∧
      outcome p (step seen) = (outcome p seen).or (ends here p).head? ∧
      ∀ u ∈ step seen, u ∈ seen ∨ rank u < rank here) :
    Adds p (fun seen => if here ∈ seen then seen else step (here :: seen)) here := by
  intro bound seen hrank hsettled
  dsimp only
  split
  · rename_i hmem
    refine ⟨hsettled, ?_, fun u hu => .inl hu⟩
    cases h : outcome p seen with
    | none => rw [hsettled here hmem hrank h]; rfl
    | some q => rfl
  · have hcons : outcome p (here :: seen) = outcome p seen := by
      rw [outcome_cons, hready]; rfl
    have hlower : Settled p (rank here) (here :: seen) := by
      intro u hu hlt hnone
      rcases List.mem_cons.1 hu with rfl | hu
      · exact absurd hlt (Nat.lt_irrefl _)
      · exact hsettled u hu (Nat.lt_trans hlt hrank) (hcons ▸ hnone)
    obtain ⟨hset, hout, hnew⟩ := hstep _ hlower
    rw [hcons] at hout
    refine ⟨?_, hout, ?_⟩
    · intro u hu hlt hnone
      by_cases hu' : rank u < rank here
      · exact hset u hu hu' hnone
      · rw [hout, Option.or_eq_none_iff] at hnone
        rcases hnew u hu with hu | hu
        · rcases List.mem_cons.1 hu with rfl | hu
          · exact hnone.2
          · exact hsettled u hu hlt hnone.1
        · exact absurd hu hu'
    · intro u hu
      rcases hnew u hu with hu | hu
      · rcases List.mem_cons.1 hu with rfl | hu
        · exact .inr (Nat.le_refl _)
        · exact .inl hu
      · exact .inr (Nat.le_of_lt hu)

/-- Two steps one after the other add the ends of both. -/
theorem adds_both {p : Cursor} {f g : List Thread → List Thread} {t u : Thread} {bound : Nat}
    (hf : Adds p f t) (hg : Adds p g u) (ht : rank t < bound) (hu : rank u < bound)
    (seen : List Thread) (hseen : Settled p bound seen) :
    Settled p bound (g (f seen)) ∧
    outcome p (g (f seen)) = (outcome p seen).or (ends t p ++ ends u p).head? ∧
    ∀ v ∈ g (f seen), v ∈ seen ∨ rank v < bound := by
  obtain ⟨hset, hout, hnew⟩ := hf bound seen ht hseen
  obtain ⟨hset', hout', hnew'⟩ := hg bound _ hu hset
  refine ⟨hset', ?_, ?_⟩
  · rw [hout', hout, List.head?_append, Option.or_assoc]
  · intro v hv
    rcases hnew' v hv with hv | hv
    · rcases hnew v hv with hv | hv
      · exact .inl hv
      · exact .inr (by omega)
    · exact .inr (by omega)

/-- The same step adds the ends of another thread with the same ends and no lower rank. -/
theorem Adds.of_ends_eq {p : Cursor} {f : List Thread → List Thread} {t u : Thread}
    (hf : Adds p f t) (hends : ends t p = ends u p) (hrank : rank t ≤ rank u) : Adds p f u := by
  intro bound seen hb hseen
  obtain ⟨hset, hout, hnew⟩ := hf bound seen (by omega) hseen
  refine ⟨hset, hends ▸ hout, fun v hv => ?_⟩
  rcases hnew v hv with hv | hv
  · exact .inl hv
  · exact .inr (by omega)

/-- Going on from a part adds the ends of the part and of what follows it. -/
theorem adds_visit {p : Cursor} {r : Code} (hr : r.isSolid = true) {rest : Thread}
    {next : List Thread → List Thread} (hnext : r.consumes = false → Adds p next rest) :
    Adds p (visit p r rest next) (r :: rest) := by
  induction r generalizing rest next with
  | empty =>
    exact (hnext rfl).of_ends_eq (by simp [ends, Code.ends]) (by simp [rank, Code.consumes])
  | chars label k => exact adds_note rfl
  | look a =>
    by_cases h : a.holds p
    · have hstep : visit p (.look a) rest next = next := by
        funext seen
        simp [visit, h]
      rw [hstep]
      exact (hnext rfl).of_ends_eq (by simp [ends, Code.ends, h]) (by simp [rank, Code.consumes])
    · intro bound seen _ hseen
      have hstep : visit p (.look a) rest next seen = seen := by simp [visit, h]
      rw [hstep]
      refine ⟨hseen, ?_, fun u hu => .inl hu⟩
      simp [ends, Code.ends, h]
  | seq r s ihr ihs =>
    simp only [Code.isSolid, Bool.and_eq_true] at hr
    have hs : r.consumes = false → Adds p (visit p s rest next) (s :: rest) := fun hrc =>
      ihs hr.2 fun hsc => hnext (by simp [Code.consumes, hrc, hsc])
    refine (ihr hr.1 hs).of_ends_eq (ends_seq r s rest p).symm ?_
    cases hrc : r.consumes <;> cases hsc : s.consumes <;>
      simp [rank, rank.weight, Code.consumes, hrc, hsc] <;> omega
  | fork label r s ihr ihs =>
    simp only [Code.isSolid, Bool.and_eq_true] at hr
    have hfr : Adds p (visit p r rest next) (r :: rest) :=
      ihr hr.1 fun h => hnext (by simp [Code.consumes, h])
    have hfs : Adds p (visit p s rest next) (s :: rest) :=
      ihs hr.2 fun h => hnext (by simp [Code.consumes, h])
    refine @adds_here p (.fork label r s :: rest)
      (fun seen => visit p s rest next (visit p r rest next seen)) rfl fun seen hseen => ?_
    rw [ends_fork]
    refine adds_both hfr hfs ?_ ?_ seen hseen <;>
      cases hrc : r.consumes <;> cases hsc : s.consumes <;>
        simp [rank, rank.weight, Code.consumes, hrc, hsc] <;> omega
  | loop label r greedy ih =>
    simp only [Code.isSolid, Bool.and_eq_true] at hr
    have hround : Adds p (visit p r (.loop label r greedy :: rest) id)
        (r :: .loop label r greedy :: rest) :=
      ih hr.2 fun h => absurd hr.1 (by simp [h])
    have hrank :
        rank (r :: .loop label r greedy :: rest) < rank (.loop label r greedy :: rest) := by
      simp only [rank, rank.weight, Code.consumes, hr.1, if_true, Bool.false_eq_true, if_false]
      omega
    have hrest : rank rest < rank (.loop label r greedy :: rest) := by
      simp only [rank, rank.weight, Code.consumes, Bool.false_eq_true, if_false]
      omega
    cases greedy with
    | true =>
      refine @adds_here p (.loop label r true :: rest)
        (fun seen => next (visit p r (.loop label r true :: rest) id seen)) rfl fun seen hseen => ?_
      rw [ends_loop hr.1, if_pos rfl]
      exact adds_both hround (hnext rfl) hrank hrest seen hseen
    | false =>
      refine @adds_here p (.loop label r false :: rest)
        (fun seen => visit p r (.loop label r false :: rest) id (next seen)) rfl
        fun seen hseen => ?_
      rw [ends_loop hr.1, if_neg (by simp)]
      exact adds_both (hnext rfl) hround hrest hrank seen hseen

/-- Whether all parts of a thread are solid. -/
def isSolid (t : Thread) : Bool := t.all Code.isSolid

/-- Whether all of some threads are solid. -/
def AllSolid (threads : List Thread) : Prop := ∀ t ∈ threads, isSolid t = true

/-- Going on from a thread adds its ends. -/
theorem adds_reach {p : Cursor} {t : Thread} (ht : isSolid t = true) : Adds p (reach p t) t := by
  induction t with
  | nil => exact adds_note rfl
  | cons r rest ih =>
    simp only [isSolid, List.all_cons, Bool.and_eq_true] at ht
    exact adds_visit ht.1 fun _ => ih ht.2

/-- The ready threads to which threads lead have the same first end. -/
theorem firstEnd_ready {p : Cursor} {threads : List Thread} (h : AllSolid threads) :
    firstEnd p (ready p threads) = firstEnd p threads := by
  suffices ∀ seen, (∀ bound, Settled p bound seen) →
      outcome p (threads.foldl (fun seen t => reach p t seen) seen) =
        (outcome p seen).or (firstEnd p threads) by
    have hempty := this [] (fun _ t ht => by simp at ht)
    rw [show outcome p [] = none from rfl, Option.none_or] at hempty
    exact hempty
  induction threads with
  | nil => intro seen _; simp [firstEnd]
  | cons t threads ih =>
    intro seen hseen
    have hstep : Adds p (reach p t) t := adds_reach (h t List.mem_cons_self)
    rw [List.foldl_cons, ih (fun u hu => h u (List.mem_cons_of_mem _ hu)) _ fun bound => ?_,
      (hstep _ seen (Nat.lt_succ_self _) (hseen _)).2.1, Option.or_assoc]
    · simp only [firstEnd, List.findSome?_cons]
      cases (ends t p).head? <;> rfl
    · exact (hstep (max bound (rank t + 1)) seen (by omega) (hseen _)).1.mono (by omega)

/-! ## Solid threads stay solid -/

theorem allSolid_note {t : Thread} {seen : List Thread} (ht : isSolid t = true)
    (hseen : AllSolid seen) : AllSolid (note t seen) := by
  rw [note]
  split
  · exact hseen
  · intro u hu
    rcases List.mem_cons.1 hu with rfl | hu
    · exact ht
    · exact hseen u hu

theorem isSolid_cons {r : Code} {rest : Thread} :
    isSolid (r :: rest) = true ↔ r.isSolid = true ∧ isSolid rest = true := by
  simp [isSolid]

theorem allSolid_visit {p : Cursor} {r : Code} (hr : r.isSolid = true) {rest : Thread}
    (hrest : isSolid rest = true) {next : List Thread → List Thread}
    (hnext : ∀ seen, AllSolid seen → AllSolid (next seen)) {seen : List Thread}
    (hseen : AllSolid seen) : AllSolid (visit p r rest next seen) := by
  have hcons : ∀ {t : Thread} {seen : List Thread}, isSolid t = true → AllSolid seen →
      AllSolid (t :: seen) := by
    intro t seen ht hs u hu
    rcases List.mem_cons.1 hu with rfl | hu
    · exact ht
    · exact hs u hu
  induction r generalizing rest next seen with
  | empty => exact hnext _ hseen
  | chars label k => exact allSolid_note (isSolid_cons.2 ⟨rfl, hrest⟩) hseen
  | look a =>
    simp only [visit]
    split
    · exact hnext _ hseen
    · exact hseen
  | seq r s ihr ihs =>
    simp only [Code.isSolid, Bool.and_eq_true] at hr
    exact ihr hr.1 (isSolid_cons.2 ⟨hr.2, hrest⟩) (fun _ h => ihs hr.2 hrest hnext h) hseen
  | fork label r s ihr ihs =>
    have hhere : isSolid (.fork label r s :: rest) = true := isSolid_cons.2 ⟨hr, hrest⟩
    simp only [Code.isSolid, Bool.and_eq_true] at hr
    simp only [visit]
    split
    · exact hseen
    · exact ihs hr.2 hrest hnext (ihr hr.1 hrest hnext (hcons hhere hseen))
  | loop label r greedy ih =>
    have hhere : isSolid (.loop label r greedy :: rest) = true := isSolid_cons.2 ⟨hr, hrest⟩
    simp only [Code.isSolid, Bool.and_eq_true] at hr
    simp only [visit]
    split
    · exact hseen
    · split
      · exact hnext _ (ih hr.2 hhere (fun _ h => h) (hcons hhere hseen))
      · exact ih hr.2 hhere (fun _ h => h) (hnext _ (hcons hhere hseen))

theorem allSolid_reach {p : Cursor} {t : Thread} (ht : isSolid t = true) {seen : List Thread}
    (hseen : AllSolid seen) : AllSolid (reach p t seen) := by
  induction t generalizing seen with
  | nil => exact allSolid_note rfl hseen
  | cons r rest ih =>
    obtain ⟨hr, hrest⟩ := isSolid_cons.1 ht
    exact allSolid_visit hr hrest (fun _ h => ih hrest h) hseen

theorem allSolid_ready {p : Cursor} {threads : List Thread} (h : AllSolid threads) :
    AllSolid (ready p threads) := by
  have hfold : ∀ seen, AllSolid seen →
      AllSolid (threads.foldl (fun seen t => reach p t seen) seen) := by
    induction threads with
    | nil => exact fun _ h => h
    | cons t threads ih =>
      intro seen hseen
      exact ih (fun u hu => h u (List.mem_cons_of_mem _ hu)) _
        (allSolid_reach (h t List.mem_cons_self) hseen)
  intro t ht
  rw [ready, List.mem_filter, List.mem_reverse] at ht
  exact hfold [] (fun _ h => by simp at h) t ht.1

theorem isReady_of_mem_ready {p : Cursor} {threads : List Thread} {t : Thread}
    (h : t ∈ ready p threads) : isReady t = true :=
  (List.mem_filter.1 h).2

/-! ## Reading on -/

/-- The end of a ready thread at a character lies behind what the thread reads of it. -/
theorem head?_ends_cons {t : Thread} (ht : isReady t = true) (hne : t ≠ []) (passed : Nat)
    (before : Option Char) (c : Char) (rest : Text) :
    (ends t ⟨passed, before, c :: rest⟩).head? =
      (after? c t).bind fun u =>
        (ends u (Cursor.past ⟨passed, before, c :: rest⟩ c rest)).head? := by
  match t, ht with
  | [], _ => exact absurd rfl hne
  | .chars label k :: t, _ =>
    simp only [ends, Code.ends, after?]
    cases k.mem c <;> simp

theorem findSome?_filterMap_eq {α β γ : Type} (f : α → Option β) (g : β → Option γ)
    (l : List α) : (l.filterMap f).findSome? g = l.findSome? fun a => (f a).bind g := by
  induction l with
  | nil => rfl
  | cons a l ih =>
    rw [List.filterMap_cons, List.findSome?_cons]
    cases f a with
    | none => exact ih
    | some b => rw [List.findSome?_cons, ih]; rfl

theorem findSome?_congr_of_mem {α β : Type} {l : List α} {f g : α → Option β}
    (h : ∀ a ∈ l, f a = g a) : l.findSome? f = l.findSome? g := by
  induction l with
  | nil => rfl
  | cons a l ih =>
    rw [List.findSome?_cons, List.findSome?_cons, h a List.mem_cons_self,
      ih fun b hb => h b (List.mem_cons_of_mem _ hb)]

theorem mem_preferred {t : Thread} {threads : List Thread} (h : t ∈ preferred threads) :
    t ∈ threads ∧ t ≠ [] := by
  induction threads with
  | nil => simp [preferred] at h
  | cons u threads ih =>
    rw [preferred, List.takeWhile_cons] at h
    split at h
    · rename_i hu
      rcases List.mem_cons.1 h with rfl | h
      · exact ⟨List.mem_cons_self, by rintro rfl; simp at hu⟩
      · exact ⟨List.mem_cons_of_mem _ (ih h).1, (ih h).2⟩
    · simp at h

theorem isSolid_of_after? {c : Char} {t u : Thread} (ht : isSolid t = true)
    (h : after? c t = some u) : isSolid u = true := by
  match t with
  | .chars label k :: t =>
    simp only [after?] at h
    split at h
    · obtain rfl := Option.some.inj h
      exact (isSolid_cons.1 ht).2
    · simp at h

/-- The first end of ready threads is that of the threads preferred to a match, or else the match.
-/
theorem firstEnd_eq_or {p : Cursor} (threads : List Thread) :
    firstEnd p threads =
      (firstEnd p (preferred threads)).or (if anyMatch threads then some p else none) := by
  induction threads with
  | nil => rfl
  | cons t threads ih =>
    match t with
    | [] => simp [firstEnd, preferred, anyMatch, List.findSome?_cons, ends]
    | r :: t =>
      simp only [firstEnd, preferred, anyMatch, List.takeWhile_cons, List.any_cons,
        List.isEmpty_cons, Bool.not_false, if_true, Bool.false_or, List.findSome?_cons] at ih ⊢
      cases (ends (r :: t) p).head? with
      | none => exact ih
      | some q => rfl

end Thread

namespace Matcher

open Thread

/-- Threads find the first of their ends, or else what was found before. -/
theorem follow_eq_or {threads : List Thread} (hsolid : AllSolid threads)
    (hready : ∀ t ∈ threads, isReady t = true) (best : Option Cursor) (passed : Nat)
    (before : Option Char) (text : Text) :
    follow threads best passed before text =
      (firstEnd ⟨passed, before, text⟩ threads).or best := by
  induction text generalizing threads best passed before with
  | nil =>
    rw [follow, firstEnd_eq_or]
    have hnone : firstEnd ⟨passed, before, []⟩ (preferred threads) = none := by
      refine List.findSome?_eq_none_iff.2 fun t ht => ?_
      obtain ⟨hmem, hne⟩ := mem_preferred ht
      match t, hready t hmem with
      | [], _ => exact absurd rfl hne
      | .chars label k :: t, _ => simp [ends, Code.ends]
    rw [hnone]
    split <;> rfl
  | cons c rest ih =>
    have hnext : firstEnd ⟨passed, before, c :: rest⟩ (preferred threads) =
        firstEnd (Cursor.past ⟨passed, before, c :: rest⟩ c rest)
          ((preferred threads).filterMap (after? c)) := by
      rw [firstEnd, firstEnd, findSome?_filterMap_eq]
      refine findSome?_congr_of_mem fun t ht => ?_
      obtain ⟨hmem, hne⟩ := mem_preferred ht
      exact head?_ends_cons (hready t hmem) hne _ _ _ _
    have hafter : AllSolid ((preferred threads).filterMap (after? c)) := by
      intro u hu
      obtain ⟨t, ht, htu⟩ := List.mem_filterMap.1 hu
      exact isSolid_of_after? (hsolid t (mem_preferred ht).1) htu
    rw [follow, firstEnd_eq_or, hnext]
    split
    · rename_i hlive
      rw [hlive]
      split <;> rfl
    · refine (ih (allSolid_ready hafter) (fun t => isReady_of_mem_ready) _ _ _).trans ?_
      rw [← firstEnd_ready hafter, Option.or_assoc]
      congr 1
      split <;> rfl

/-- In solid code the most preferred end is found. -/
theorem matchFrom_eq_head? {m : Matcher} (h : m.code.isSolid = true) (p : Cursor) :
    m.matchFrom p = (m.code.ends p).head? := by
  have hsolid : AllSolid [[m.code]] := by simpa [AllSolid, isSolid] using h
  rw [matchFrom, follow_eq_or (allSolid_ready hsolid) fun t => isReady_of_mem_ready,
    firstEnd_ready hsolid]
  simp [firstEnd, Thread.ends]

end Matcher

end PredictiveParsing
