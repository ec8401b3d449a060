import PredictiveParsing.Report.Diagnostic

/-!
# What the location of an offset is

The line of an offset is one more than the number of line feeds in front of it, and the column is
one more than the number of characters behind the last of these.

* `search_rank`: the search by halving counts the numbers up to the one that it looks for.
* `LineTable.locate_behind`: the location of an offset between two characters.
* `Location.behind_before`: locations ascend.
* `locate_exact`: all that, offsets behind the end, and the locations of labels.
-/

namespace PredictiveParsing

open Text

/-! ## Searching by halving -/

/-- The number of ascending numbers that do not exceed the one that stands there. -/
def Standing.rank : Standing → Nat
  | .found index => index + 1
  | .missing index => index

/-- In ascending numbers, those that do not exceed a bound come first. -/
theorem getElem_le_iff_lt_countP {numbers : List Nat} (h : numbers.Pairwise (· < ·)) (n : Nat)
    {i : Nat} (hi : i < numbers.length) : numbers[i] ≤ n ↔ i < numbers.countP (· ≤ n) := by
  induction numbers generalizing i with
  | nil => exact absurd hi (Nat.not_lt_zero i)
  | cons first numbers ih =>
    obtain ⟨hfirst, hrest⟩ := List.pairwise_cons.1 h
    by_cases hle : first ≤ n
    · rw [List.countP_cons_of_pos (by simpa using hle)]
      cases i with
      | zero => simpa using hle
      | succ i =>
        rw [List.getElem_cons_succ, ih hrest (Nat.lt_of_succ_lt_succ hi)]
        omega
    · have hlarge : ∀ m ∈ first :: numbers, n < m := by
        intro m hm
        rcases List.mem_cons.1 hm with rfl | hm
        · exact Nat.lt_of_not_le hle
        · exact Nat.lt_trans (Nat.lt_of_not_le hle) (hfirst m hm)
      have hnone : (first :: numbers).countP (· ≤ n) = 0 :=
        List.countP_eq_zero.2 fun m hm => by simpa using hlarge m hm
      rw [hnone]
      exact iff_of_false (Nat.not_le_of_lt (hlarge _ (List.getElem_mem hi))) (Nat.not_lt_zero i)

/-- As many numbers do not exceed the one that is looked for as the search says. The number of these
lies between the two indices all along. -/
theorem search_rank {numbers : List Nat} (hsorted : numbers.Pairwise (· < ·)) {n low high : Nat}
    (h : high ≤ numbers.length) (hlow : low ≤ numbers.countP (· ≤ n))
    (hhigh : numbers.countP (· ≤ n) ≤ high) :
    (search numbers n low high h).rank = numbers.countP (· ≤ n) := by
  fun_induction search numbers n low high h with
  | case1 low high h hlt middle hmiddle heq =>
    have hcounted := (getElem_le_iff_lt_countP hsorted n hmiddle).1 (Nat.le_of_eq heq)
    have hlast : ¬ middle + 1 < numbers.countP (· ≤ n) := by
      intro hnext
      have hindex : middle + 1 < numbers.length := Nat.lt_of_lt_of_le hnext List.countP_le_length
      have hle := (getElem_le_iff_lt_countP hsorted n hindex).2 hnext
      have hlt := List.pairwise_iff_getElem.1 hsorted middle (middle + 1) hmiddle hindex
        (Nat.lt_succ_self middle)
      omega
    rw [Standing.rank]
    omega
  | case2 low high h hlt middle hmiddle hne hless ih =>
    exact ih ((getElem_le_iff_lt_countP hsorted n hmiddle).1 (Nat.le_of_lt hless)) hhigh
  | case3 low high h hlt middle hmiddle hne hless ih =>
    refine ih hlow (Nat.le_of_not_lt fun hcounted => ?_)
    have hle := (getElem_le_iff_lt_countP hsorted n hmiddle).2 hcounted
    omega
  | case4 low high h hlt =>
    rw [Standing.rank]
    omega

namespace LineTable

theorem lineIndex_eq {table : LineTable} (hsorted : table.starts.Pairwise (· < ·)) (offset : Nat) :
    table.lineIndex offset = table.starts.countP (· ≤ offset) - 1 := by
  have hrank := search_rank hsorted (Nat.le_refl _) (Nat.zero_le _)
    (List.countP_le_length (p := (· ≤ offset)))
  rw [lineIndex, ← hrank]
  cases search table.starts offset 0 table.starts.length (Nat.le_refl _) <;> rfl

/-! ## The starts of lines -/

theorem startsBehind_append (offset : Nat) (a b : Text) :
    startsBehind offset (a ++ b) =
      startsBehind offset a ++ startsBehind (offset + byteLength a) b := by
  induction a generalizing offset with
  | nil => rfl
  | cons c a ih =>
    simp only [List.cons_append, startsBehind, ih, byteLength_cons, Nat.add_assoc]
    split <;> rfl

theorem mem_startsBehind {offset start : Nat} {text : Text} (h : start ∈ startsBehind offset text) :
    offset < start ∧ start ≤ offset + byteLength text := by
  induction text generalizing offset with
  | nil => exact absurd h List.not_mem_nil
  | cons c text ih =>
    have hpos := utf8Size_pos c
    have hrest (h : start ∈ startsBehind (offset + c.utf8Size) text) :
        offset < start ∧ start ≤ offset + byteLength (c :: text) := by
      have := ih h
      rw [byteLength_cons]
      omega
    rw [startsBehind] at h
    split at h
    · rcases List.mem_cons.1 h with rfl | h
      · rw [byteLength_cons]
        omega
      · exact hrest h
    · exact hrest h

theorem startsBehind_sorted (offset : Nat) (text : Text) :
    (startsBehind offset text).Pairwise (· < ·) := by
  induction text generalizing offset with
  | nil => exact .nil
  | cons c text ih =>
    rw [startsBehind]
    split
    · exact .cons (fun start hstart => (mem_startsBehind hstart).1) (ih _)
    · exact ih _

theorem length_startsBehind (offset : Nat) (text : Text) :
    (startsBehind offset text).length = text.count '\n' := by
  induction text generalizing offset with
  | nil => rfl
  | cons c text ih =>
    rw [startsBehind]
    split
    · rename_i hc
      rw [List.length_cons, ih, hc, List.count_cons_self]
    · rename_i hc
      rw [ih, List.count_cons_of_ne hc]

/-- Where all offsets fit, the table holds them as they are. -/
theorem starts_ofText {text : Text} (h : byteLength text < offsetLimit) :
    (ofText text).starts = 0 :: startsBehind 0 text := by
  have hfits : ∀ start ∈ startsBehind 0 text, narrow start (offsetLimit - 1) = start := by
    intro start hstart
    have := (mem_startsBehind hstart).2
    rw [narrow, if_pos (by omega)]
  rw [ofText, List.map_congr_left hfits, List.map_id']

theorem starts_sorted {text : Text} (h : byteLength text < offsetLimit) :
    (ofText text).starts.Pairwise (· < ·) := by
  rw [starts_ofText h]
  exact .cons (fun start hstart => (mem_startsBehind hstart).1) (startsBehind_sorted 0 text)

end LineTable

/-! ## Locations behind texts -/

/-- What stands behind the last line feed of a text. -/
def Text.lastLine (text : Text) : Text := (text.reverse.takeWhile (· != '\n')).reverse

/-- A text ends before its last line or with a line feed in front of it. -/
theorem exists_lastLine (text : Text) :
    ∃ front, text = front ++ lastLine text ∧ '\n' ∉ lastLine text ∧
      (front = [] ∨ ∃ lines, front = lines ++ ['\n']) := by
  refine ⟨(text.reverse.dropWhile (· != '\n')).reverse, ?_, fun hmem => ?_, ?_⟩
  · rw [lastLine, ← List.reverse_append, List.takeWhile_append_dropWhile, List.reverse_reverse]
  · have hall := List.all_eq_true.1 (List.all_takeWhile (p := (· != '\n')) (l := text.reverse))
    exact absurd (hall '\n' (List.mem_reverse.1 hmem)) (by decide)
  · have hstop := List.head?_dropWhile_not (· != '\n') text.reverse
    cases hrest : text.reverse.dropWhile (· != '\n') with
    | nil => exact Or.inl rfl
    | cons c rest =>
      rw [hrest] at hstop
      obtain rfl : c = '\n' := by simpa using hstop
      exact Or.inr ⟨rest.reverse, List.reverse_cons⟩

theorem lastLine_append (a : Text) {b : Text} (h : '\n' ∉ b) :
    lastLine (a ++ b) = lastLine a ++ b := by
  have hall : ∀ c ∈ b.reverse, (c != '\n') = true := by
    intro c hc
    rw [bne_iff_ne]
    rintro rfl
    exact h (List.mem_reverse.1 hc)
  rw [lastLine, List.reverse_append, List.takeWhile_append_of_pos hall, List.reverse_append,
    List.reverse_reverse, lastLine]

namespace Location

/-- The location behind a text at the start of a source. -/
def behind (before : Text) : Location :=
  ⟨1 + before.count '\n', 1 + (lastLine before).length⟩

/-- A location stands on an earlier line, or on the same line and further left. -/
def Before (l l' : Location) : Prop :=
  l.line < l'.line ∨ l.line = l'.line ∧ l.column < l'.column

theorem behind_before (a : Text) {b : Text} (hb : b ≠ []) :
    (behind a).Before (behind (a ++ b)) := by
  by_cases hmem : '\n' ∈ b
  · have hpos := List.count_pos_iff.2 hmem
    left
    simp only [behind, List.count_append]
    omega
  · have hpos := List.length_pos_iff.2 hb
    right
    simp only [behind, List.count_append, List.count_eq_zero.2 hmem, lastLine_append a hmem,
      List.length_append]
    omega

theorem behind_lt {before : Text} (h : byteLength before < offsetLimit - 1) :
    (behind before).line < offsetLimit ∧ (behind before).column < offsetLimit := by
  have hlength := length_le_byteLength before
  have hcount : before.count '\n' ≤ before.length := List.count_le_length
  obtain ⟨front, hfront, -, -⟩ := exists_lastLine before
  have hlast : (lastLine before).length ≤ before.length := by
    have := congrArg List.length hfront
    rw [List.length_append] at this
    omega
  simp only [behind]
  omega

end Location

namespace LineTable

variable {before after : Text}

theorem lineIndex_behind (h : byteLength (before ++ after) < offsetLimit) :
    (ofText (before ++ after)).lineIndex (byteLength before) = before.count '\n' := by
  have hbefore : (startsBehind 0 before).countP (· ≤ byteLength before) = before.count '\n' := by
    rw [← length_startsBehind 0, List.countP_eq_length]
    intro start hstart
    have := (mem_startsBehind hstart).2
    simp only [decide_eq_true_eq]
    omega
  have hafter :
      (startsBehind (0 + byteLength before) after).countP (· ≤ byteLength before) = 0 := by
    rw [List.countP_eq_zero]
    intro start hstart
    have := (mem_startsBehind hstart).1
    simp only [decide_eq_true_eq]
    omega
  rw [lineIndex_eq (starts_sorted h), starts_ofText h, List.countP_cons_of_pos (by simp),
    startsBehind_append, List.countP_append, hbefore, hafter]
  omega

/-- The last line in front of an offset starts where the text in front of that line ends. -/
theorem lineStart_behind (h : byteLength (before ++ after) < offsetLimit) {front last : Text}
    (hbefore : before = front ++ last) (hlast : '\n' ∉ last)
    (hfront : front = [] ∨ ∃ lines, front = lines ++ ['\n']) :
    (ofText (before ++ after)).lineStart (before.count '\n' + 1) = byteLength front := by
  rw [lineStart, starts_ofText h, hbefore, List.count_append, List.count_eq_zero.2 hlast]
  rcases hfront with rfl | ⟨lines, rfl⟩
  · rfl
  · have hstarts : 0 :: startsBehind 0 (lines ++ ['\n'] ++ last ++ after) =
        (0 :: startsBehind 0 lines) ++ byteLength (lines ++ ['\n']) ::
          startsBehind (byteLength (lines ++ ['\n'])) (last ++ after) := by
      rw [List.append_assoc, startsBehind_append 0 (lines ++ ['\n']), startsBehind_append 0 lines]
      simp [startsBehind]
    have hindex : (lines ++ ['\n']).count '\n' + 0 + 1 - 1 =
        (0 :: startsBehind 0 lines).length := by
      simp [length_startsBehind]
    rw [hstarts, hindex, List.getElem?_append_right (Nat.le_refl _), Nat.sub_self]
    rfl

/-- Between two characters, an offset has the location behind the text in front of it. -/
theorem locate_behind (h : byteLength (before ++ after) < offsetLimit - 1) :
    (ofText (before ++ after)).locate (before ++ after) (byteLength before) =
      Location.behind before := by
  obtain ⟨front, hbefore, hlast, hfront⟩ := exists_lastLine before
  generalize hlastLine : lastLine before = last at hbefore hlast
  have hfits : byteLength (before ++ after) < offsetLimit := by omega
  have hle : byteLength before ≤ byteLength (before ++ after) := by
    rw [byteLength_append]
    exact Nat.le_add_right _ _
  have hbehind := Location.behind_lt (Nat.lt_of_le_of_lt hle h)
  simp only [Location.behind, hlastLine] at hbehind
  have hline : (ofText (before ++ after)).line (byteLength before) = before.count '\n' + 1 := by
    rw [line, lineIndex_behind hfits, narrow, if_pos (by omega)]
  have hsum : byteLength before = byteLength front + byteLength last := by
    rw [hbefore, byteLength_append]
  have hslice : slice (before ++ after) (byteLength front) (byteLength before) = some last := by
    rw [hsum, hbefore, slice_append]
  have hstop : max (min (byteLength before) (byteLength (before ++ after))) (byteLength front) =
      byteLength before := by
    omega
  simp only [locate, hline, lineStart_behind hfits hbefore hlast hfront, hstop, hslice]
  rw [Option.getD_some, narrow, if_pos (by omega), Location.behind, hlastLine, Nat.add_comm 1,
    Nat.add_comm 1]

/-- Behind the end, an offset has the location of the end. -/
theorem locate_of_le {source : Text} (h : byteLength source < offsetLimit) {offset : Nat}
    (hend : byteLength source ≤ offset) :
    (ofText source).locate source offset = (ofText source).locate source (byteLength source) := by
  have hcount : (ofText source).starts.countP (· ≤ offset) =
      (ofText source).starts.countP (· ≤ byteLength source) := by
    refine List.countP_congr fun start hstart => ?_
    rw [starts_ofText h, List.mem_cons] at hstart
    have hle : start ≤ byteLength source := by
      rcases hstart with rfl | hstart
      · exact Nat.zero_le _
      · have := (mem_startsBehind hstart).2
        omega
    simp only [decide_eq_true_eq]
    omega
  have hline : (ofText source).line offset = (ofText source).line (byteLength source) := by
    rw [line, line, lineIndex_eq (starts_sorted h), lineIndex_eq (starts_sorted h), hcount]
  rw [locate, locate, hline, Nat.min_eq_right hend, Nat.min_self]

theorem locate_end {source : Text} (h : byteLength source < offsetLimit - 1) {offset : Nat}
    (hend : byteLength source ≤ offset) :
    (ofText source).locate source offset = Location.behind source := by
  have hwhole : (ofText (source ++ [])).locate (source ++ []) (byteLength source) =
      Location.behind source := locate_behind (by rwa [List.append_nil])
  rw [List.append_nil] at hwhole
  rw [locate_of_le (by omega) hend, hwhole]

/-- Locations ascend with the offsets between characters. -/
theorem locate_before {source : Text} (h : byteLength source < offsetLimit - 1)
    {offset offset' : Nat} (hoffset : IsBoundary source offset)
    (hoffset' : IsBoundary source offset') (hlt : offset < offset') :
    ((ofText source).locate source offset).Before ((ofText source).locate source offset') := by
  obtain ⟨a, x, rfl, rfl⟩ := hoffset
  obtain ⟨a', x', hsource, rfl⟩ := hoffset'
  rw [locate_behind h]
  rw [hsource] at h ⊢
  rw [locate_behind h]
  rcases List.append_eq_append_iff.1 hsource with ⟨b, rfl, -⟩ | ⟨b, rfl, -⟩
  · refine Location.behind_before a fun hnil => ?_
    rw [hnil, List.append_nil] at hlt
    exact absurd hlt (Nat.lt_irrefl _)
  · rw [byteLength_append] at hlt
    omega

end LineTable

/-! ## Labels -/

/-- The text in front of an offset. An offset behind the end has the whole text in front of it. -/
def Text.upTo (source : Text) (offset : Nat) : Text := (takeBytes? source offset).getD source

theorem locate_upTo {source : Text} (h : byteLength source < offsetLimit - 1) {offset : Nat}
    (hoffset : IsBoundary source offset ∨ byteLength source < offset) :
    (LineTable.ofText source).locate source offset = Location.behind (upTo source offset) := by
  rcases hoffset with ⟨before, after, rfl, rfl⟩ | hend
  · rw [LineTable.locate_behind h, upTo, takeBytes?_byteLength_append]
    rfl
  · rw [LineTable.locate_end h (Nat.le_of_lt hend), upTo, takeBytes?_eq_none hend]
    rfl

/-- A location as it is shown. -/
def Location.shown (l : Location) : String := s!"{l.line}:{l.column}"

theorem Diagnostic.render_eq (d : Diagnostic) {source : Text}
    (h : byteLength source < offsetLimit - 1)
    (hlabels : ∀ label ∈ d.labels,
      IsBoundary source label.span.start ∨ byteLength source < label.span.start) :
    d.render source = String.intercalate "\n" (d.lines fun span =>
      (Location.behind (upTo source span.start)).shown) := by
  have hplaces : ∀ label ∈ d.labels,
      "  --> " ++ ((LineTable.ofText source).locate source label.span.start).shown ++ ": " ++
          label.message =
        "  --> " ++ (Location.behind (upTo source label.span.start)).shown ++ ": " ++
          label.message := by
    intro label hlabel
    rw [locate_upTo h (hlabels label hlabel)]
  rw [render, lines, lines, ← List.map_congr_left hplaces]
  rfl

/-! ## Locations of a source -/

/-- In a source whose offsets all fit, an offset between two characters is on the line behind the
line feeds in front of it and in the column behind the characters behind the last of these. Offsets
behind the end count as the end, and locations ascend with offsets. A diagnostic shows each label at
the location of its start. -/
theorem locate_exact {source : Text} (h : byteLength source < offsetLimit - 1) :
    let table := LineTable.ofText source
    (∀ before after, source = before ++ after →
      let location := table.locate source (byteLength before)
      location = Location.behind before ∧ location.line < offsetLimit ∧
        location.column < offsetLimit) ∧
    (∀ offset, byteLength source ≤ offset →
      table.locate source offset = Location.behind source) ∧
    (∀ offset offset', IsBoundary source offset → IsBoundary source offset' → offset < offset' →
      (table.locate source offset).Before (table.locate source offset')) ∧
    ∀ d : Diagnostic,
      (∀ label ∈ d.labels,
        IsBoundary source label.span.start ∨ byteLength source < label.span.start) →
      d.render source = String.intercalate "\n" (d.lines fun span =>
        (Location.behind (upTo source span.start)).shown) := by
  intro table
  refine ⟨?_, fun offset hoffset => LineTable.locate_end h hoffset,
    fun offset offset' => LineTable.locate_before h, fun d hlabels => d.render_eq h hlabels⟩
  rintro before after rfl location
  have hle : byteLength before ≤ byteLength (before ++ after) := by
    rw [byteLength_append]
    exact Nat.le_add_right _ _
  have hlocation : location = Location.behind before := LineTable.locate_behind h
  rw [hlocation]
  exact ⟨rfl, Location.behind_lt (Nat.lt_of_le_of_lt hle h)⟩

/-- In a source with a character of two bytes, the last offset is in the second column of the
second line, and a label there is shown so. -/
theorem locate_exact_umlaut :
    let source := "ä;\nö".toList
    let d := (Diagnostic.ofCode .unexpectedEnd).withLabel ⟨6, 6⟩ "end"
    (LineTable.ofText source).locate source 6 = ⟨2, 2⟩ ∧
      (LineTable.ofText source).locate source 99 = ⟨2, 2⟩ ∧
      ((LineTable.ofText source).locate source 3).Before
        ((LineTable.ofText source).locate source 4) ∧
      d.render source = "error [E1002]: unexpected end of input\n  --> 2:2: end" := by
  intro source d
  have hlen : byteLength source < offsetLimit - 1 := by decide
  obtain ⟨hinside, hend, hascend, hrender⟩ := locate_exact hlen
  have hlast : IsBoundary source 6 := ⟨source, [], rfl, rfl⟩
  refine ⟨(hinside source [] rfl).1, hend 99 (by decide), ?_, (hrender d ?_).trans (by decide)⟩
  · exact hascend 3 4 ⟨"ä;".toList, _, rfl, rfl⟩ ⟨"ä;\n".toList, _, rfl, rfl⟩ (by decide)
  · exact List.forall_mem_singleton.2 (Or.inl hlast)

end PredictiveParsing
