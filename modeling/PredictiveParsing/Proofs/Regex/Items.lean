import PredictiveParsing.Proofs.Regex.Rests

/-!
# Runs and items

Words are mostly runs of characters of a class. A greedy loop takes a run to its end, so that
behind it the text is clear of the class. A loop over longer items takes any number of them; where
no item is the start of another, the text can be cut into items in one way only.

* `dropWhile_of_clear`: a run ends in front of a text that is clear of its class.
* `rests_ofText`: the code of a text matches the text and nothing else.
* `mem_rests_loop_iff_items`, `Items.unique`: loops over items.
-/

namespace PredictiveParsing

open Text

/-! ## Runs of characters -/

/-- No character of the class comes first. -/
def CharClass.Clear (k : CharClass) (text : Text) : Prop := ∀ c ∈ text.head?, k.mem c = false

namespace CharClass

variable {k : CharClass}

theorem clear_nil : k.Clear [] := by
  intro c hc
  cases hc

theorem clear_cons {c : Char} {rest : Text} : k.Clear (c :: rest) ↔ k.mem c = false := by
  simp [Clear]

/-- No character belongs to both classes. -/
def disjoint (k l : CharClass) : Bool :=
  k.ranges.all fun r => l.ranges.all fun s => r.2 < s.1 || s.2 < r.1

theorem mem_eq_false_of_disjoint {l : CharClass} {c : Char} (h : k.disjoint l = true)
    (hc : k.mem c = true) : l.mem c = false := by
  cases hl : l.mem c with
  | false => rfl
  | true =>
    obtain ⟨r, hr, hrc⟩ := Text.inRanges_iff.1 hc
    obtain ⟨s, hs, hsc⟩ := Text.inRanges_iff.1 hl
    have hpair := List.all_eq_true.1 (List.all_eq_true.1 h r hr) s hs
    simp only [Bool.or_eq_true, decide_eq_true_eq] at hpair
    omega

theorem clear_dropWhile (k : CharClass) (text : Text) : k.Clear (text.dropWhile k.mem) := by
  intro c hc
  have h := List.head?_dropWhile_not k.mem text
  rw [Option.mem_def.1 hc] at h
  exact h

theorem dropWhile_eq_self {text : Text} (h : k.Clear text) : text.dropWhile k.mem = text := by
  cases text with
  | nil => rfl
  | cons c rest =>
    rw [List.dropWhile_cons_of_neg]
    rw [clear_cons.1 h]
    exact Bool.false_ne_true

theorem dropWhile_of_clear {run rest : Text} (hrun : ∀ c ∈ run, k.mem c = true)
    (hrest : k.Clear rest) : (run ++ rest).dropWhile k.mem = rest := by
  induction run with
  | nil => exact dropWhile_eq_self hrest
  | cons c run ih =>
    rw [List.cons_append, List.dropWhile_cons_of_pos (hrun c List.mem_cons_self)]
    exact ih fun d hd => hrun d (List.mem_cons_of_mem c hd)

theorem exists_run (k : CharClass) (text : Text) :
    ∃ run, text = run ++ text.dropWhile k.mem ∧ ∀ c ∈ run, k.mem c = true :=
  ⟨text.takeWhile k.mem, List.takeWhile_append_dropWhile.symm,
    List.all_eq_true.1 List.all_takeWhile⟩

end CharClass

/-! ## Codes of words -/

namespace Code

theorem rests_andThen (r : Code) {s : Code} (hs : s.isPlain = true) (text : Text) :
    (r.andThen s).rests text = (r.rests text).flatMap s.rests := by
  unfold andThen
  split
  · simp
  · have hempty : (fun rest : Text => [rest]) = Code.empty.rests := rfl
    simp [← hempty]
  · exact rests_seq r hs text

theorem isPlain_andThen {r s : Code} (hr : r.isPlain = true) (hs : s.isPlain = true) :
    (r.andThen s).isPlain = true := by
  unfold andThen
  split
  · exact hs
  · exact hr
  · simp [isPlain, hr, hs]

theorem isPlain_ofText (text : Text) (n : Nat) : ((ofText text).run n).1.isPlain = true := by
  induction text generalizing n with
  | nil => rfl
  | cons c text ih => exact isPlain_andThen rfl (ih (n + 1))

/-- The code of a text matches the text and nothing else. -/
theorem rests_ofText (word : Text) (n : Nat) (text : Text) :
    ((ofText word).run n).1.rests text =
      if word <+: text then [text.drop word.length] else [] := by
  induction word generalizing n text with
  | nil =>
    rw [if_pos List.nil_prefix]
    rfl
  | cons c word ih =>
    have hcode : ((ofText (c :: word)).run n).1 =
        (Code.chars n (CharClass.singleton c)).andThen ((ofText word).run (n + 1)).1 := rfl
    rw [hcode, rests_andThen _ (isPlain_ofText word (n + 1))]
    cases text with
    | nil => simp
    | cons d text =>
      rw [rests_chars_cons]
      by_cases hd : d = c
      · rw [if_pos (CharClass.mem_singleton.2 hd), List.flatMap_singleton, ih]
        simp [hd, List.cons_prefix_cons]
      · rw [if_neg (fun h => hd (CharClass.mem_singleton.1 h)), List.flatMap_nil, if_neg]
        rw [List.cons_prefix_cons]
        exact fun h => hd h.1.symm

/-- One of a class and then as many of another as there are. -/
def run (label label' label'' : Nat) (k l : CharClass) : Code :=
  .seq (.chars label k) (.loop label' (.chars label'' l) true)

theorem head?_rests_run (label label' label'' : Nat) (k l : CharClass) (c : Char) (rest : Text) :
    ((run label label' label'' k l).rests (c :: rest)).head? =
      if k.mem c then some (rest.dropWhile l.mem) else none := by
  rw [run, head?_rests_seq_of_ne_nil _ rfl fun _ _ => rests_loop_ne_nil rfl rfl _,
    rests_chars_cons]
  split
  · exact head?_rests_loop_chars label' label'' l rest
  · rfl

end Code

/-! ## Items one after the other -/

/-- Any number of items one after the other. -/
inductive Items (item : Text → Prop) : Text → Prop where
  | nil : Items item []
  | cons {first rest : Text} : item first → Items item rest → Items item (first ++ rest)

/-- If no item is the start of another, and none begins with the character behind the items, they
end at that character only. -/
theorem Items.unique {item : Text → Prop} {d : Char}
    (hcode : ∀ a b x y, item a → item b → a ++ x = b ++ y → a = b)
    (hstop : ∀ a x y, item a → a ++ x ≠ d :: y) {a b x y : Text} (ha : Items item a)
    (hb : Items item b) (h : a ++ d :: x = b ++ d :: y) : a = b := by
  induction ha generalizing b with
  | nil =>
    cases hb with
    | nil => rfl
    | cons hfirst hrest =>
      rw [List.append_assoc] at h
      exact absurd h.symm (hstop _ _ _ hfirst)
  | cons hfirst hrest ih =>
    cases hb with
    | nil =>
      rw [List.append_assoc] at h
      exact absurd h (hstop _ _ _ hfirst)
    | cons hfirst' hrest' =>
      rw [List.append_assoc, List.append_assoc] at h
      have hsame := hcode _ _ _ _ hfirst hfirst' h
      subst hsame
      rw [ih hrest' (List.append_cancel_left h)]

namespace Code

theorem mem_rests_chars {label : Nat} {k : CharClass} {text rest : Text} :
    rest ∈ (Code.chars label k).rests text ↔ ∃ c, text = c :: rest ∧ k.mem c = true := by
  cases text with
  | nil => simp
  | cons c text =>
    rw [rests_chars_cons]
    split
    · rename_i hc
      constructor
      · intro h
        exact ⟨c, by rw [List.mem_singleton.1 h], hc⟩
      · rintro ⟨d, heq, -⟩
        cases heq
        exact List.mem_singleton_self _
    · rename_i hc
      constructor
      · intro h
        cases h
      · rintro ⟨d, heq, hd⟩
        cases heq
        exact absurd hd hc

theorem mem_rests_seq {r s : Code} (hs : s.isPlain = true) {text rest : Text} :
    rest ∈ (Code.seq r s).rests text ↔ ∃ mid ∈ r.rests text, rest ∈ s.rests mid := by
  rw [rests_seq r hs, List.mem_flatMap]

theorem mem_rests_loop {label : Nat} {r : Code} {greedy : Bool} (hc : r.consumes = true)
    (hr : r.isPlain = true) {text rest : Text} :
    rest ∈ (Code.loop label r greedy).rests text ↔
      rest = text ∨ ∃ mid ∈ r.rests text, rest ∈ (Code.loop label r greedy).rests mid := by
  rw [rests_loop hc hr]
  cases greedy with
  | true => simp [or_comm]
  | false => simp

/-- A loop over the code of an item matches items. -/
theorem mem_rests_loop_iff_items {label : Nat} {r : Code} {greedy : Bool} {item : Text → Prop}
    (hc : r.consumes = true) (hr : r.isPlain = true)
    (hitem : ∀ text rest, rest ∈ r.rests text ↔ ∃ first, text = first ++ rest ∧ item first)
    {text rest : Text} :
    rest ∈ (Code.loop label r greedy).rests text ↔
      ∃ body, text = body ++ rest ∧ Items item body := by
  constructor
  · intro h
    -- Each round leaves less text.
    induction hn : text.length using Nat.strongRecOn generalizing text with
    | ind n ih =>
      rcases (mem_rests_loop hc hr).1 h with rfl | ⟨mid, hmid, hrest⟩
      · exact ⟨[], rfl, .nil⟩
      · have hlt := length_lt_of_mem_rests hc hmid
        obtain ⟨first, rfl, hfirst⟩ := (hitem text mid).1 hmid
        obtain ⟨body, rfl, hbody⟩ := ih mid.length (by omega) hrest rfl
        exact ⟨first ++ body, by rw [List.append_assoc], .cons hfirst hbody⟩
  · rintro ⟨body, rfl, hbody⟩
    induction hbody with
    | nil => exact (mem_rests_loop hc hr).2 (Or.inl rfl)
    | cons hfirst _ ih =>
      refine (mem_rests_loop hc hr).2 (Or.inr ⟨_, (hitem _ _).2 ⟨_, ?_, hfirst⟩, ih⟩)
      rw [List.append_assoc]

end Code

end PredictiveParsing
