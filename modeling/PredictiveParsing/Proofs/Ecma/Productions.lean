import PredictiveParsing.Proofs.Ecma.Spelling
import PredictiveParsing.Proofs.Parse.Steps

/-!
# The productions of the grammar

Each function of the grammar succeeds where the tokens of one of its productions can be read and
its parts succeed, and fails where a token is missing or a part fails.

* `primary_number`, `primary_regex`, `primary_ident`, `primary_paren`: operands.
* `chained_succeeds`: operands with operators between them.
* `return_succeeds`, `var_succeeds`, `evaluated_succeeds`: statements.
-/

namespace PredictiveParsing.Ecma

open Text PredictiveParsing.Parser

/-- A parser that scans by the lexicon of the language and watches for no kind. -/
structure Standard (parser : Parser) : Prop where
  lexicon_eq : parser.scanner.lexicon = lexicon
  tripwire_eq : parser.scanner.tripwire = none

theorem Standard.of_config (config : ScanConfig) (messages : MessageBuilder) :
    Standard (parser config messages) where
  lexicon_eq := by rw [parser]
  tripwire_eq := rfl

/-- Words of the kinds begin with different characters. -/
def apart (id id' : KindId) : Bool :=
  match shapeOf id, shapeOf id' with
  | some shape, some shape' => shape.first.disjoint shape'.first
  | _, _ => false

theorem exists_shapes_of_apart {id id' : KindId} (h : apart id id' = true) :
    ∃ shape shape', shapeOf id = some shape ∧ shapeOf id' = some shape' ∧
      shape.first.disjoint shape'.first = true := by
  rw [apart] at h
  split at h
  · exact ⟨_, _, by assumption, by assumption, h⟩
  · cases h

variable {μ : Type} {parser : Parser} {rules : List String} {p q r : Place}
  {t : Token} {tokens a b : List Token}

/-! ## Tokens that are read -/

theorem word_of_reads (hstd : Standard parser) (h : parser.scanner.Reads p (t :: tokens) q)
    {shape : Shape} (hshape : shapeOf t.kind = some shape) : shape.Word t.text := by
  obtain ⟨rest, -, htakes⟩ := h.takes_behind
  rw [hstd.lexicon_eq] at htakes
  exact word_of_takes hshape htakes

theorem offers_eq_false (hstd : Standard parser) (h : parser.scanner.Reads p (t :: tokens) q)
    {id : KindId} (hapart : apart t.kind id = true) : parser.scanner.offers p id = false := by
  obtain ⟨rest, hrest, htakes⟩ := h.takes_behind
  obtain ⟨shape, shape', hshape, hshape', hdisjoint⟩ := exists_shapes_of_apart hapart
  rw [hstd.lexicon_eq] at htakes
  rw [Scanner.offers, hrest, hstd.lexicon_eq]
  exact sees_eq_false hshape hshape' hdisjoint htakes

theorem offers_eq_false_of_end {id : KindId} (h : (parser.scanner.behind p).rest = []) :
    parser.scanner.offers p id = false := by
  rw [Scanner.offers, h]
  exact Lexicon.sees_nil _ _

theorem word_eq_of_sign (hstd : Standard parser) (h : parser.scanner.Reads p (t :: tokens) q)
    {id : KindId} {c : Char} (hkind : t.kind = id) (hshape : shapeOf id = some (.sign c)) :
    t.word = (id, [c]) := by
  have hword : (Shape.sign c).Word t.text := word_of_reads hstd h (by rw [hkind]; exact hshape)
  change t.text = [c] at hword
  rw [Token.word, hkind, hword]

theorem word_eq_of_keyword (hstd : Standard parser) (h : parser.scanner.Reads p (t :: tokens) q)
    {id : KindId} {word : Text} (hkind : t.kind = id)
    (hshape : shapeOf id = some (.keyword word)) : t.word = (id, word) := by
  have hword : (Shape.keyword word).Word t.text :=
    word_of_reads hstd h (by rw [hkind]; exact hshape)
  rw [Token.word, hkind, hword.1]

theorem kind_eq_of_word {id : KindId} {text : Text} (h : t.word = (id, text)) : t.kind = id :=
  congrArg Prod.fst h

theorem consume_kind (hstd : Standard parser) {id : KindId} (h : parser.scanner.Reads p [t] q)
    (hkind : t.kind = id) :
    Succeeds parser rules (parser.consume id : ParseAction μ Token) p [t] q t := by
  rw [← hkind]
  exact consume_succeeds hstd.tripwire_eq h

/-! ## Operands -/

/-- The last slash divides a regular expression from its flags. -/
theorem splitRegex_eq {pattern flags : Text} (h : '/' ∉ flags) :
    splitRegex ('/' :: (pattern ++ '/' :: flags)) = (pattern, flags) := by
  have hreverse : ('/' :: (pattern ++ '/' :: flags)).reverse =
      flags.reverse ++ '/' :: (pattern.reverse ++ ['/']) := by simp
  have hall : ∀ c ∈ flags.reverse, (c != '/') = true := by
    intro c hc
    rw [bne_iff_ne]
    rintro rfl
    exact h (List.mem_reverse.1 hc)
  have hne : pattern.reverse ++ ['/'] ≠ [] := by simp
  obtain ⟨c, rest, hbody⟩ := List.exists_cons_of_ne_nil hne
  unfold splitRegex
  rw [hreverse, List.dropWhile_append_of_pos hall, List.takeWhile_append_of_pos hall,
    List.dropWhile_cons_of_neg (by decide), List.takeWhile_cons_of_neg (by decide), hbody]
  simp only [← hbody]
  simp

section

variable {nested : ParseAction μ Expr}

theorem primary_number (hstd : Standard parser) (h : parser.scanner.Reads p [t] q)
    (hkind : t.kind = numericLiteral) :
    Succeeds parser rules (primary parser nested) p [t] q (.number t.text t.span) := by
  have hoffers := h.offers
  rw [hkind] at hoffers
  have hbranch : (primaryChoice.branches.findIdx? fun branch =>
      branch.kinds.any (parser.scanner.offers p)) = some 0 := by
    simp [primaryChoice, List.findIdx?_cons, hoffers]
  unfold primary
  refine Succeeds.rule "Primary" ((alternatives_succeeds hstd.tripwire_eq hbranch).decide ?_)
  exact (consume_kind hstd h hkind).bind_pure fun token => Expr.number token.text token.span

theorem primary_regex (hstd : Standard parser) (h : parser.scanner.Reads p [t] q)
    (hkind : t.kind = regexLiteral) :
    Succeeds parser rules (primary parser nested) p [t] q
      (.regex (splitRegex t.text).1 (splitRegex t.text).2 t.span) := by
  have hoffers := h.offers
  have hnumber : parser.scanner.offers p numericLiteral = false :=
    offers_eq_false hstd h (by rw [hkind]; decide)
  rw [hkind] at hoffers
  have hbranch : (primaryChoice.branches.findIdx? fun branch =>
      branch.kinds.any (parser.scanner.offers p)) = some 1 := by
    simp [primaryChoice, List.findIdx?_cons, hnumber, hoffers]
  unfold primary
  refine Succeeds.rule "Primary" ((alternatives_succeeds hstd.tripwire_eq hbranch).decide ?_)
  exact (consume_kind hstd h hkind).bind_pure fun token =>
    Expr.regex (splitRegex token.text).1 (splitRegex token.text).2 token.span

theorem primary_ident (hstd : Standard parser) (h : parser.scanner.Reads p [t] q)
    (hkind : t.kind = identifier) :
    Succeeds parser rules (primary parser nested) p [t] q (.ident t.text t.span) := by
  have hoffers := h.offers
  have hnumber : parser.scanner.offers p numericLiteral = false :=
    offers_eq_false hstd h (by rw [hkind]; decide)
  have hregex : parser.scanner.offers p regexLiteral = false :=
    offers_eq_false hstd h (by rw [hkind]; decide)
  rw [hkind] at hoffers
  have hbranch : (primaryChoice.branches.findIdx? fun branch =>
      branch.kinds.any (parser.scanner.offers p)) = some 2 := by
    simp [primaryChoice, List.findIdx?_cons, hnumber, hregex, hoffers]
  unfold primary
  refine Succeeds.rule "Primary" ((alternatives_succeeds hstd.tripwire_eq hbranch).decide ?_)
  exact (consume_kind hstd h hkind).bind_pure fun token => Expr.ident token.text token.span

/-- Where a parenthesis stands the last branch is taken. -/
theorem primaryChoice_paren (hstd : Standard parser)
    (h : parser.scanner.Reads p (t :: tokens) q) (hkind : t.kind = leftParen) :
    (primaryChoice.branches.findIdx? fun branch =>
      branch.kinds.any (parser.scanner.offers p)) = some 3 := by
  have hoffers := h.offers
  have hnumber : parser.scanner.offers p numericLiteral = false :=
    offers_eq_false hstd h (by rw [hkind]; decide)
  have hregex : parser.scanner.offers p regexLiteral = false :=
    offers_eq_false hstd h (by rw [hkind]; decide)
  have hident : parser.scanner.offers p identifier = false :=
    offers_eq_false hstd h (by rw [hkind]; decide)
  rw [hkind] at hoffers
  simp [primaryChoice, List.findIdx?_cons, hnumber, hregex, hident, hoffers]

theorem primary_paren (hstd : Standard parser) {first last : Token} {inner : Expr}
    {p₁ p₂ : Place} (hfirst : parser.scanner.Reads p [first] p₁) (hleft : first.kind = leftParen)
    (hinner : Succeeds parser ("Primary" :: rules) nested p₁ a p₂ inner)
    (hlast : parser.scanner.Reads p₂ [last] q) (hright : last.kind = rightParen) :
    Succeeds parser rules (primary parser nested) p (first :: (a ++ [last])) q
      (.paren inner (first.span.merge last.span)) := by
  have hbranch := primaryChoice_paren hstd hfirst hleft
  unfold primary
  refine Succeeds.rule "Primary" ((alternatives_succeeds hstd.tripwire_eq hbranch).decide ?_)
  refine (consume_kind hstd hfirst hleft).bind (hinner.bind ?_)
  exact (consume_kind hstd hlast hright).bind_pure fun last =>
    Expr.paren inner (first.span.merge last.span)

theorem primary_nested_fails (hstd : Standard parser) {first : Token} {p₁ : Place}
    {expected : List KindId} {active : Option String}
    (hfirst : parser.scanner.Reads p [first] p₁) (hleft : first.kind = leftParen)
    (hinner : Fails parser ("Primary" :: rules) nested p₁ a q expected active) :
    Fails parser rules (primary parser nested) p (first :: a) q expected active := by
  have hbranch := primaryChoice_paren hstd hfirst hleft
  unfold primary
  refine Fails.rule "Primary" ((alternatives_succeeds hstd.tripwire_eq hbranch).decide_fails ?_)
  exact (consume_kind hstd hfirst hleft).bind_fails hinner.bind

theorem primary_unclosed (hstd : Standard parser) {first : Token} {inner : Expr} {p₁ : Place}
    (hfirst : parser.scanner.Reads p [first] p₁) (hleft : first.kind = leftParen)
    (hinner : Succeeds parser ("Primary" :: rules) nested p₁ a q inner)
    (hlast : parser.scanner.offers q rightParen = false) :
    Fails parser rules (primary parser nested) p (first :: a) q [rightParen] (some "Primary") := by
  have hbranch := primaryChoice_paren hstd hfirst hleft
  unfold primary
  refine Fails.rule "Primary" ((alternatives_succeeds hstd.tripwire_eq hbranch).decide_fails ?_)
  apply (consume_kind hstd hfirst hleft).bind_fails
  rw [← List.append_nil a]
  exact hinner.bind_fails (consume_fails hlast).bind

theorem primary_fails (hstd : Standard parser)
    (h : ∀ id ∈ operandKinds, parser.scanner.offers p id = false) :
    Fails parser rules (primary parser nested) p [] p operandKinds (some "Primary") := by
  have hbranch : (primaryChoice.branches.findIdx? fun branch =>
      branch.kinds.any (parser.scanner.offers p)) = none := by
    simp only [operandKinds, List.forall_mem_cons] at h
    simp [primaryChoice, List.findIdx?_cons, h]
  unfold primary
  exact Fails.rule "Primary" (alternatives_fails hstd.tripwire_eq hbranch).bind

end

/-! ## Operators -/

/-- Two operators are those of a rank. -/
structure OperatorsOf (rank : Nat) (op op' : BinaryOp) : Prop where
  ne : op ≠ op'
  rank_eq : ∀ o : BinaryOp, o.rank = rank ↔ o = op ∨ o = op'

theorem operatorsOf_additive : OperatorsOf 2 .add .sub where
  ne := by decide
  rank_eq := by
    intro o
    cases o <;> decide

theorem operatorsOf_multiplicative : OperatorsOf 1 .mul .div where
  ne := by decide
  rank_eq := by
    intro o
    cases o <;> decide

def operatorStart (op op' : BinaryOp) : OptionalLookahead := ⟨⟨[op.kind, op'.kind]⟩⟩

def operatorChoice (op op' : BinaryOp) : AlternativeLookahead :=
  ⟨[⟨[op.kind]⟩, ⟨[op'.kind]⟩]⟩

/-- One of two operators. -/
def oneOf (parser : Parser) (op op' : BinaryOp) : ParseAction μ BinaryOp :=
  operator parser (operatorChoice op op') (op.kind, op) (op'.kind, op')

/-- One of two operators and an operand. -/
def operation (parser : Parser) (op op' : BinaryOp) (operand : ParseAction μ Expr) :
    ParseAction μ (BinaryOp × Expr) := do
  let o ← oneOf parser op op'
  return (o, ← operand)

/-- No operator of a lower rank is offered. -/
def Free (parser : Parser) (rank : Nat) (p : Place) : Prop :=
  ∀ o : BinaryOp, o.rank < rank → parser.scanner.offers p o.kind = false

theorem apart_kind {op op' : BinaryOp} (h : op ≠ op') : apart op.kind op'.kind = true := by
  cases op <;> cases op' <;> first | exact absurd rfl h | decide

theorem free_of_reads (hstd : Standard parser) {rank : Nat}
    (h : parser.scanner.Reads p (t :: tokens) q)
    (hapart : ∀ o : BinaryOp, o.rank < rank → apart t.kind o.kind = true) : Free parser rank p :=
  fun o ho => offers_eq_false hstd h (hapart o ho)

section

variable {rank : Nat} {op op' : BinaryOp} {operand : ParseAction μ Expr}

theorem oneOf_succeeds (hstd : Standard parser) (hne : op ≠ op') {o : BinaryOp}
    (ho : o = op ∨ o = op') (h : parser.scanner.Reads p [t] q) (hsign : t.word = o.word) :
    Succeeds parser rules (oneOf parser op op' : ParseAction μ BinaryOp) p [t] q o := by
  have hkind : t.kind = o.kind := kind_eq_of_word hsign
  have hoffers := h.offers
  rw [hkind] at hoffers
  unfold oneOf operator
  rcases ho with rfl | rfl
  · have hbranch : ((operatorChoice o op').branches.findIdx? fun branch =>
        branch.kinds.any (parser.scanner.offers p)) = some 0 := by
      simp [operatorChoice, List.findIdx?_cons, hoffers]
    apply (alternatives_succeeds hstd.tripwire_eq hbranch).decide
    exact (consume_kind hstd h hkind).bind_pure fun _ => o
  · have hother : parser.scanner.offers p op.kind = false :=
      offers_eq_false hstd h (by rw [hkind]; exact apart_kind hne.symm)
    have hbranch : ((operatorChoice op o).branches.findIdx? fun branch =>
        branch.kinds.any (parser.scanner.offers p)) = some 1 := by
      simp [operatorChoice, List.findIdx?_cons, hother, hoffers]
    apply (alternatives_succeeds hstd.tripwire_eq hbranch).decide
    exact (consume_kind hstd h hkind).bind_pure fun _ => o

theorem any_operatorStart (hops : OperatorsOf rank op op') {o : BinaryOp} (ho : o.rank = rank)
    (h : parser.scanner.offers p o.kind = true) :
    (operatorStart op op').candidates.kinds.any (parser.scanner.offers p) = true := by
  rcases (hops.rank_eq o).1 ho with rfl | rfl
  · simp [operatorStart, h]
  · simp [operatorStart, h]

theorem operation_succeeds (hstd : Standard parser) (hops : OperatorsOf rank op op') {x : Link}
    (hx : x.IsOfRank rank) (h : parser.scanner.Reads p [x.sign] q)
    (hoperand : Succeeds parser rules operand q x.tokens r x.operand) :
    Succeeds parser rules (operation parser op op' operand) p x.all r (x.op, x.operand) := by
  apply (oneOf_succeeds hstd hops.ne ((hops.rank_eq _).1 hx.op) h hx.sign).bind
  exact hoperand.bind_pure fun e => (x.op, e)

/-- Links that are read are the rounds of the repetition behind the first operand. -/
theorem repeats_links (hstd : Standard parser) (hops : OperatorsOf rank op op')
    {links : List Link} (hlinks : ∀ x ∈ links, x.IsOfRank rank)
    (hoperand : ∀ x ∈ links, ∀ p q, parser.scanner.Reads p x.tokens q → Free parser rank q →
      Succeeds parser rules operand p x.tokens q x.operand)
    (h : parser.scanner.Reads p (links.flatMap Link.all) q) (hfree : Free parser (rank + 1) q) :
    Repeats parser rules (operatorStart op op') (operation parser op op' operand) p
        (links.map fun x => (x.all, (x.op, x.operand))) q ∧ Free parser rank p := by
  induction links generalizing p with
  | nil =>
    cases h
    exact ⟨.nil, fun o ho => hfree o (Nat.lt_succ_of_lt ho)⟩
  | cons x links ih =>
    have hx := hlinks x List.mem_cons_self
    rw [List.flatMap_cons] at h
    obtain ⟨p₂, hall, hmore⟩ := h.split
    obtain ⟨p₁, hsign, htokens⟩ := Scanner.Reads.split (a := [x.sign]) hall
    obtain ⟨hrepeats, hfree₂⟩ := ih (fun y hy => hlinks y (List.mem_cons_of_mem x hy))
      (fun y hy => hoperand y (List.mem_cons_of_mem x hy)) hmore
    have hkind : x.sign.kind = x.op.kind := kind_eq_of_word hx.sign
    have hoffers := hsign.offers
    rw [hkind] at hoffers
    have hsucceeds := operation_succeeds hstd hops hx hsign
      (hoperand x List.mem_cons_self p₁ p₂ htokens hfree₂)
    refine ⟨.cons (any_operatorStart hops hx.op hoffers) hsucceeds (List.cons_ne_nil _ _) hrepeats,
      free_of_reads hstd hsign fun o ho => ?_⟩
    rw [hkind]
    apply apart_kind
    rintro rfl
    exact absurd hx.op (Nat.ne_of_lt ho)

/-- A tree of a rank is parsed as the chain that it is. -/
theorem chained_succeeds (hstd : Standard parser) (hops : OperatorsOf rank op op')
    (hpos : 0 < rank) {n : Nat}
    (hoperand : ∀ (e : Expr) (a : List Token) (p q : Place), e.Spells a → e.Grouped →
      e.rank < rank → parser.scanner.Reads p a q → Free parser rank q → a.length ≤ n →
      Succeeds parser rules operand p a q e)
    {e : Expr} (hspells : e.Spells tokens) (hgrouped : e.Grouped) (hrank : e.rank ≤ rank)
    (h : parser.scanner.Reads p tokens q) (hfree : Free parser (rank + 1) q)
    (hlen : tokens.length ≤ n) :
    Succeeds parser rules (chained parser (operatorStart op op') (oneOf parser op op') operand) p
      tokens q e := by
  obtain ⟨first, start, links, rfl, rfl, hfirst, hgf, hrf, hlinks⟩ :=
    exists_chain hpos hspells hgrouped hrank h.sorted
  obtain ⟨p₁, hstart, hmore⟩ := h.split
  have hshort : ∀ x ∈ links, x.tokens.length ≤ n := by
    intro x hx
    have hle : x.all.length ≤ (links.flatMap Link.all).length :=
      (List.sublist_flatten_of_mem (List.mem_map_of_mem hx)).length_le
    rw [List.length_append] at hlen
    rw [Link.all, List.length_cons] at hle
    omega
  obtain ⟨hrepeats, hfree₁⟩ := repeats_links hstd hops hlinks
    (fun x hx p q hreads hq => hoperand x.operand x.tokens p q (hlinks x hx).spells
      (hlinks x hx).grouped (hlinks x hx).lower hreads hq (hshort x hx)) hmore hfree
  have hlast : (operatorStart op op').candidates.kinds.any (parser.scanner.offers q) = false := by
    have hop := hfree op (by rw [(hops.rank_eq op).2 (Or.inl rfl)]; omega)
    have hop' := hfree op' (by rw [(hops.rank_eq op').2 (Or.inr rfl)]; omega)
    simp [operatorStart, hop, hop']
  rw [List.length_append] at hlen
  apply (hoperand first start p p₁ hfirst hgf hrf hstart hfree₁ (by omega)).bind
  have hmany := many_succeeds hstd.tripwire_eq hrepeats hlast
  have hbind := hmany.bind_pure fun rest => first.chain rest
  simp only [List.flatMap_map, List.map_map, Function.comp_def] at hbind
  exact hbind

end

/-! ## Statements -/

section

variable {depth : Nat} {first last : Token} {p₁ p₂ p₃ : Place} {value : Option Expr}
  {expected : List KindId} {active : Option String}

theorem return_succeeds (hstd : Standard parser) (hfirst : parser.scanner.Reads p [first] p₁)
    (hkeyword : first.kind = returnKeyword)
    (hvalue : Succeeds parser ("ReturnStatement" :: rules)
      (parser.optional expressionStart (expression parser depth) : ParseAction μ (Option Expr)) p₁
      a p₂ value)
    (hlast : parser.scanner.Reads p₂ [last] q) (hsemicolon : last.kind = semicolon) :
    Succeeds parser rules (returnStatement parser depth : ParseAction μ Statement) p
      (first :: (a ++ [last])) q (.returned value (first.span.merge last.span)) := by
  unfold returnStatement
  apply Succeeds.rule "ReturnStatement"
  refine (consume_kind hstd hfirst hkeyword).bind (hvalue.bind ?_)
  exact (consume_kind hstd hlast hsemicolon).bind_pure fun last =>
    Statement.returned value (first.span.merge last.span)

theorem return_value_fails (hstd : Standard parser)
    (hfirst : parser.scanner.Reads p [first] p₁) (hkeyword : first.kind = returnKeyword)
    (hvalue : Fails parser ("ReturnStatement" :: rules)
      (parser.optional expressionStart (expression parser depth) : ParseAction μ (Option Expr)) p₁
      a q expected active) :
    Fails parser rules (returnStatement parser depth : ParseAction μ Statement) p (first :: a) q
      expected active := by
  unfold returnStatement
  apply Fails.rule "ReturnStatement"
  exact (consume_kind hstd hfirst hkeyword).bind_fails hvalue.bind

theorem return_open (hstd : Standard parser) (hfirst : parser.scanner.Reads p [first] p₁)
    (hkeyword : first.kind = returnKeyword)
    (hvalue : Succeeds parser ("ReturnStatement" :: rules)
      (parser.optional expressionStart (expression parser depth) : ParseAction μ (Option Expr)) p₁
      a q value)
    (hlast : parser.scanner.offers q semicolon = false) :
    Fails parser rules (returnStatement parser depth : ParseAction μ Statement) p (first :: a) q
      [semicolon] (some "ReturnStatement") := by
  unfold returnStatement
  apply Fails.rule "ReturnStatement"
  apply (consume_kind hstd hfirst hkeyword).bind_fails
  rw [← List.append_nil a]
  exact hvalue.bind_fails (consume_fails hlast).bind

/-- The initial value of a declaration. -/
def initializer (parser : Parser) (depth : Nat) : ParseAction μ (Option Expr) :=
  parser.optional initializerStart do
    let _ ← parser.consume equals
    expression parser depth

variable {name : Token}

theorem var_succeeds (hstd : Standard parser) (hfirst : parser.scanner.Reads p [first] p₁)
    (hkeyword : first.kind = varKeyword) (hname : parser.scanner.Reads p₁ [name] p₂)
    (hident : name.kind = identifier)
    (hvalue : Succeeds parser ("VarStatement" :: rules)
      (initializer parser depth : ParseAction μ (Option Expr)) p₂ a p₃ value)
    (hlast : parser.scanner.Reads p₃ [last] q) (hsemicolon : last.kind = semicolon) :
    Succeeds parser rules (varStatement parser depth : ParseAction μ Statement) p
      (first :: name :: (a ++ [last])) q
      (.declared name.text value (first.span.merge last.span)) := by
  unfold varStatement
  apply Succeeds.rule "VarStatement"
  refine (consume_kind hstd hfirst hkeyword).bind ((consume_kind hstd hname hident).bind ?_)
  apply hvalue.bind
  exact (consume_kind hstd hlast hsemicolon).bind_pure fun last =>
    Statement.declared name.text value (first.span.merge last.span)

theorem var_unnamed (hstd : Standard parser) (hfirst : parser.scanner.Reads p [first] q)
    (hkeyword : first.kind = varKeyword) (hname : parser.scanner.offers q identifier = false) :
    Fails parser rules (varStatement parser depth : ParseAction μ Statement) p [first] q
      [identifier] (some "VarStatement") := by
  unfold varStatement
  apply Fails.rule "VarStatement"
  exact (consume_kind hstd hfirst hkeyword).bind_fails (consume_fails hname).bind

theorem var_value_fails (hstd : Standard parser) (hfirst : parser.scanner.Reads p [first] p₁)
    (hkeyword : first.kind = varKeyword) (hname : parser.scanner.Reads p₁ [name] p₂)
    (hident : name.kind = identifier)
    (hvalue : Fails parser ("VarStatement" :: rules)
      (initializer parser depth : ParseAction μ (Option Expr)) p₂ a q expected active) :
    Fails parser rules (varStatement parser depth : ParseAction μ Statement) p
      (first :: name :: a) q expected active := by
  unfold varStatement
  apply Fails.rule "VarStatement"
  apply (consume_kind hstd hfirst hkeyword).bind_fails
  exact (consume_kind hstd hname hident).bind_fails hvalue.bind

theorem var_open (hstd : Standard parser) (hfirst : parser.scanner.Reads p [first] p₁)
    (hkeyword : first.kind = varKeyword) (hname : parser.scanner.Reads p₁ [name] p₂)
    (hident : name.kind = identifier)
    (hvalue : Succeeds parser ("VarStatement" :: rules)
      (initializer parser depth : ParseAction μ (Option Expr)) p₂ a q value)
    (hlast : parser.scanner.offers q semicolon = false) :
    Fails parser rules (varStatement parser depth : ParseAction μ Statement) p
      (first :: name :: a) q [semicolon] (some "VarStatement") := by
  unfold varStatement
  apply Fails.rule "VarStatement"
  apply (consume_kind hstd hfirst hkeyword).bind_fails
  apply (consume_kind hstd hname hident).bind_fails
  rw [← List.append_nil a]
  exact hvalue.bind_fails (consume_fails hlast).bind

variable {e : Expr}

theorem evaluated_succeeds (hstd : Standard parser)
    (he : Succeeds parser ("ExpressionStatement" :: rules)
      (expression parser depth : ParseAction μ Expr) p a p₁ e)
    (hlast : parser.scanner.Reads p₁ [last] q) (hsemicolon : last.kind = semicolon) :
    Succeeds parser rules (expressionStatement parser depth : ParseAction μ Statement) p
      (a ++ [last]) q (.evaluated e (e.span.merge last.span)) := by
  unfold expressionStatement
  refine Succeeds.rule "ExpressionStatement" (he.bind ?_)
  exact (consume_kind hstd hlast hsemicolon).bind_pure fun last =>
    Statement.evaluated e (e.span.merge last.span)

theorem evaluated_fails (he : Fails parser ("ExpressionStatement" :: rules)
      (expression parser depth : ParseAction μ Expr) p a q expected active) :
    Fails parser rules (expressionStatement parser depth : ParseAction μ Statement) p a q
      expected active := by
  unfold expressionStatement
  exact Fails.rule "ExpressionStatement" he.bind

theorem evaluated_open (he : Succeeds parser ("ExpressionStatement" :: rules)
      (expression parser depth : ParseAction μ Expr) p a q e)
    (hlast : parser.scanner.offers q semicolon = false) :
    Fails parser rules (expressionStatement parser depth : ParseAction μ Statement) p a q
      [semicolon] (some "ExpressionStatement") := by
  unfold expressionStatement
  apply Fails.rule "ExpressionStatement"
  rw [← List.append_nil a]
  exact he.bind_fails (consume_fails hlast).bind

/-! ## The choice of a statement -/

/-- The statement of a branch. -/
def statementOf (parser : Parser) (depth : Nat) : Nat → ParseAction μ Statement
  | 0 => returnStatement parser depth
  | 1 => varStatement parser depth
  | _ => expressionStatement parser depth

/-- The branch that is taken where a statement begins. -/
def statementBranch (parser : Parser) (p : Place) : Nat :=
  if parser.scanner.offers p returnKeyword then 0
  else if parser.scanner.offers p varKeyword then 1
  else 2

theorem findIdx?_statementChoice
    (h : statementStart.candidates.kinds.any (parser.scanner.offers p) = true) :
    (statementChoice.branches.findIdx? fun branch =>
      branch.kinds.any (parser.scanner.offers p)) = some (statementBranch parser p) := by
  have hany : (parser.scanner.offers p returnKeyword || (parser.scanner.offers p varKeyword ||
      operandKinds.any (parser.scanner.offers p))) = true := h
  have hbranches : statementChoice.branches =
      [⟨[returnKeyword]⟩, ⟨[varKeyword]⟩, ⟨operandKinds⟩] := rfl
  rw [hbranches, List.findIdx?_cons, List.findIdx?_cons, List.findIdx?_cons, statementBranch]
  cases hreturn : parser.scanner.offers p returnKeyword with
  | true => simp [hreturn]
  | false =>
    cases hvar : parser.scanner.offers p varKeyword with
    | true => simp [hreturn, hvar]
    | false =>
      rw [hreturn, hvar, Bool.false_or, Bool.false_or] at hany
      simp [hreturn, hvar, hany]

theorem statement_succeeds (hstd : Standard parser) {v : Statement}
    (h : statementStart.candidates.kinds.any (parser.scanner.offers p) = true)
    (hbody : Succeeds parser ("Statement" :: rules)
      (statementOf parser depth (statementBranch parser p) : ParseAction μ Statement)
      p tokens q v) :
    Succeeds parser rules (statement parser depth : ParseAction μ Statement) p tokens q v := by
  unfold statement
  apply Succeeds.rule "Statement"
  apply (alternatives_succeeds hstd.tripwire_eq (findIdx?_statementChoice h)).decide
  exact hbody

theorem statement_fails (hstd : Standard parser)
    (h : statementStart.candidates.kinds.any (parser.scanner.offers p) = true)
    (hbody : Fails parser ("Statement" :: rules)
      (statementOf parser depth (statementBranch parser p) : ParseAction μ Statement) p tokens q
      expected active) :
    Fails parser rules (statement parser depth : ParseAction μ Statement) p tokens q expected
      active := by
  unfold statement
  apply Fails.rule "Statement"
  apply (alternatives_succeeds hstd.tripwire_eq (findIdx?_statementChoice h)).decide_fails
  exact hbody

/-! ## Programs -/

/-- The statements of a program whose source a place cuts in two. -/
def statements (parser : Parser) (p : Place) : ParseAction μ (List Statement) :=
  parser.many statementStart (statement parser (byteLength p.source + 1))

/-- The program of statements that begin at an offset. -/
def programOf (start : Nat) (body : List Statement) : Program :=
  ⟨body, ⟨start, body.getLast?.elim start (·.span.stop)⟩⟩

/-- The parts of a program whose source a place cuts in two. -/
def programParts (parser : Parser) (p : Place) : ParseAction μ Program := do
  let body ← statements parser p
  parser.expectEnd
  return programOf (byteLength p.before) body

theorem program_eq {s : ParserState} (hstore : s.store = p.store) :
    (program parser : ParseAction μ Program) s =
      Parser.rule "Program" (programParts parser p) s := by
  have hsource : s.store.source = p.source := by
    rw [hstore]
    rfl
  have hoffset : s.offset = byteLength p.before := by
    rw [ParserState.offset, hstore]
    rfl
  unfold program
  apply Parser.rule_congr
  rw [Action.bind_of_ok (Action.get_apply _), programParts, statements, ← hsource, ← hoffset]
  rfl

theorem program_ends {body : List Statement}
    (hbody : Succeeds parser ("Program" :: rules)
      (statements parser p : ParseAction μ (List Statement)) p tokens q body)
    (hend : (parser.scanner.behind q).rest = []) (hfit : p.Fits) {s : ParserState}
    (hstore : s.store = p.store) (hrules : s.rules = rules) :
    ∃ records, (program parser : ParseAction μ Program) s =
        ⟨.ok (programOf (byteLength p.before) body), advanced s tokens (parser.scanner.behind q),
          records⟩ ∧ commits records = parser.named tokens := by
  obtain ⟨records, hrun, hcommits⟩ :=
    hbody.run hfit { s with rules := "Program" :: s.rules } hstore (by rw [hrules])
  have hparts : (programParts parser p : ParseAction μ Program)
      { s with rules := "Program" :: s.rules } =
      ⟨.ok (programOf (byteLength p.before) body),
        advanced { s with rules := "Program" :: s.rules } tokens (parser.scanner.behind q),
        records⟩ := by
    rw [programParts, Action.bind_of_ok hrun,
      Action.bind_of_ok (expectEnd_ends hend (hbody.reads.fits hfit) rfl)]
    simp [advanced_append]
  rw [program_eq hstore]
  exact ⟨_, Parser.rule_of_ok "Program" hparts, by rw [commits_rule, hcommits]⟩

theorem programParts_fails
    (h : Fails parser ("Program" :: rules) (programParts parser p : ParseAction μ Program) p tokens
      q expected active) :
    Fails parser rules (program parser : ParseAction μ Program) p tokens q expected active where
  reads := h.reads
  run := by
    intro hfit s hstore hrules
    rw [program_eq hstore]
    exact (h.rule "Program").run hfit s hstore hrules

theorem program_fails
    (hbody : Fails parser ("Program" :: rules)
      (statements parser p : ParseAction μ (List Statement)) p tokens q expected active) :
    Fails parser rules (program parser : ParseAction μ Program) p tokens q expected active :=
  programParts_fails hbody.bind

theorem program_open {body : List Statement}
    (hbody : Succeeds parser ("Program" :: rules)
      (statements parser p : ParseAction μ (List Statement)) p tokens q body)
    (hend : (parser.scanner.behind q).rest ≠ []) :
    Fails parser rules (program parser : ParseAction μ Program) p tokens q [KindId.eof]
      (some "Program") := by
  apply programParts_fails
  rw [← List.append_nil tokens]
  exact hbody.bind_fails (expectEnd_fails hend).bind

end

end PredictiveParsing.Ecma
