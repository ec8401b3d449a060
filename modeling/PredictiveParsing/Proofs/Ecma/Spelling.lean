import PredictiveParsing.Ecma.Grammar
import PredictiveParsing.Proofs.Ecma.Words
import PredictiveParsing.Proofs.Scan.Places

/-!
# How trees are spelled

A tree is spelled by the tokens of its leaves, operators, parentheses and keywords in order. Each
node has the span from the start of its first token to the end of its last one.

Which trees a sequence of operators can stand for is a matter of rank: an operator takes operands
that bind no looser than itself on its left and tighter than itself on its right.

* `chain_spells`: operands and operators that are chained are spelled one after the other.
* `exists_chain`: every tree of a rank is such a chain of trees of lower ranks.
-/

namespace PredictiveParsing

open Text

/-- The kind and the text of a token. -/
def Token.word (t : Token) : KindId × Text := (t.kind, t.text)

namespace Ecma

/-! ## Words -/

def BinaryOp.kind : BinaryOp → KindId
  | .add => plus
  | .sub => minus
  | .mul => star
  | .div => slash

def BinaryOp.word (op : BinaryOp) : KindId × Text := (op.kind, [op.sign])

def Expr.words : Expr → List (KindId × Text)
  | .number text _ => [(numericLiteral, text)]
  | .regex pattern flags _ => [(regexLiteral, '/' :: (pattern ++ '/' :: flags))]
  | .ident name _ => [(identifier, name)]
  | .binary op left right _ => left.words ++ op.word :: right.words
  | .paren inner _ => (leftParen, ['(']) :: (inner.words ++ [(rightParen, [')'])])

def Statement.words : Statement → List (KindId × Text)
  | .returned value _ =>
    (returnKeyword, "return".toList) :: (value.elim [] Expr.words ++ [(semicolon, [';'])])
  | .declared name init _ =>
    (varKeyword, "var".toList) :: (identifier, name) ::
      (init.elim [] (fun e => (equals, ['=']) :: e.words) ++ [(semicolon, [';'])])
  | .evaluated expr _ => expr.words ++ [(semicolon, [';'])]

/-! ## Rank -/

/-- How loosely an operator binds. -/
def BinaryOp.rank : BinaryOp → Nat
  | .add => 2
  | .sub => 2
  | .mul => 1
  | .div => 1

namespace Expr

/-- How loosely the outermost operator binds; an operand has none. -/
def rank : Expr → Nat
  | .binary op _ _ _ => op.rank
  | _ => 0

/-- No operand binds looser than its operator, and no right operand as loosely. -/
def Grouped : Expr → Prop
  | .binary op left right _ =>
    left.Grouped ∧ right.Grouped ∧ left.rank ≤ op.rank ∧ right.rank < op.rank
  | .paren inner _ => inner.Grouped
  | _ => True

/-! ## Spelling -/

/-- An expression is spelled by tokens, and its nodes have the spans of their tokens. -/
inductive Spells : Expr → List Token → Prop where
  | number {t : Token} : t.kind = numericLiteral → Spells (.number t.text t.span) [t]
  | regex {t : Token} {pattern flags : Text} : t.kind = regexLiteral →
      t.text = '/' :: (pattern ++ '/' :: flags) → '/' ∉ flags →
      Spells (.regex pattern flags t.span) [t]
  | ident {t : Token} : t.kind = identifier → Spells (.ident t.text t.span) [t]
  | binary {op : BinaryOp} {left right : Expr} {a b : List Token} {t : Token} :
      Spells left a → t.word = op.word → Spells right b →
      Spells (.binary op left right (Scanner.cover (a ++ t :: b))) (a ++ t :: b)
  | paren {inner : Expr} {a : List Token} {first last : Token} :
      first.word = (leftParen, ['(']) → Spells inner a → last.word = (rightParen, [')']) →
      Spells (.paren inner (Scanner.cover (first :: (a ++ [last])))) (first :: (a ++ [last]))

variable {e : Expr} {tokens : List Token}

theorem Spells.ne_nil (h : e.Spells tokens) : tokens ≠ [] := by
  cases h <;> simp

theorem Spells.span_eq (h : e.Spells tokens) : e.span = Scanner.cover tokens := by
  cases h <;> rfl

theorem Spells.merge_last (h : e.Spells tokens) {last : Token}
    (hsorted : Scanner.Sorted (tokens ++ [last])) :
    e.span.merge last.span = Scanner.cover (tokens ++ [last]) := by
  rw [h.span_eq]
  exact Scanner.merge_cover (m := []) (b := [last]) hsorted h.ne_nil (List.cons_ne_nil _ _)

theorem Spells.map_word (h : e.Spells tokens) : tokens.map Token.word = e.words := by
  induction h with
  | number hkind => rw [List.map_singleton, Token.word, hkind, words]
  | regex hkind htext => rw [List.map_singleton, Token.word, hkind, htext, words]
  | ident hkind => rw [List.map_singleton, Token.word, hkind, words]
  | binary _ hop _ ihl ihr => rw [List.map_append, List.map_cons, ihl, hop, ihr, words]
  | paren hfirst _ hlast ih =>
    rw [List.map_cons, List.map_append, List.map_singleton, hfirst, ih, hlast, words]

end Expr

/-! ## Statements -/

namespace Statement

/-- The expressions of a statement are grouped. -/
def Grouped : Statement → Prop
  | .returned value _ => ∀ e ∈ value, e.Grouped
  | .declared _ init _ => ∀ e ∈ init, e.Grouped
  | .evaluated expr _ => expr.Grouped

/-- An expression that is a statement does not begin with the word of a keyword. -/
def Proper : Statement → Prop
  | .evaluated expr _ =>
    ∀ word ∈ expr.words.head?, word.2 ≠ "return".toList ∧ word.2 ≠ "var".toList
  | _ => True

/-- A statement is spelled by tokens, and its nodes have the spans of their tokens. -/
inductive Spells : Statement → List Token → Prop where
  | returned {first last : Token} : first.word = (returnKeyword, "return".toList) →
      last.word = (semicolon, [';']) →
      Spells (.returned none (Scanner.cover [first, last])) [first, last]
  | returnedValue {e : Expr} {a : List Token} {first last : Token} :
      first.word = (returnKeyword, "return".toList) → e.Spells a →
      last.word = (semicolon, [';']) →
      Spells (.returned (some e) (Scanner.cover (first :: (a ++ [last])))) (first :: (a ++ [last]))
  | declared {first name last : Token} : first.word = (varKeyword, "var".toList) →
      name.kind = identifier → last.word = (semicolon, [';']) →
      Spells (.declared name.text none (Scanner.cover [first, name, last])) [first, name, last]
  | declaredInit {e : Expr} {a : List Token} {first name sign last : Token} :
      first.word = (varKeyword, "var".toList) → name.kind = identifier →
      sign.word = (equals, ['=']) → e.Spells a → last.word = (semicolon, [';']) →
      Spells (.declared name.text (some e) (Scanner.cover (first :: name :: sign :: (a ++ [last]))))
        (first :: name :: sign :: (a ++ [last]))
  | evaluated {e : Expr} {a : List Token} {last : Token} : e.Spells a →
      last.word = (semicolon, [';']) →
      Spells (.evaluated e (Scanner.cover (a ++ [last]))) (a ++ [last])

theorem Spells.ne_nil {s : Statement} {tokens : List Token} (h : s.Spells tokens) :
    tokens ≠ [] := by
  cases h <;> simp

theorem Spells.map_word {s : Statement} {tokens : List Token} (h : s.Spells tokens) :
    tokens.map Token.word = s.words := by
  cases h with
  | returned hfirst hlast => simp [hfirst, hlast, words]
  | returnedValue hfirst he hlast => simp [hfirst, he.map_word, hlast, words]
  | @declared first name last hfirst hname hlast =>
    have hword : name.word = (identifier, name.text) := by rw [Token.word, hname]
    simp [hfirst, hword, hlast, words]
  | @declaredInit e a first name sign last hfirst hname hsign he hlast =>
    have hword : name.word = (identifier, name.text) := by rw [Token.word, hname]
    simp [hfirst, hword, hsign, he.map_word, hlast, words]
  | evaluated he hlast => simp [he.map_word, hlast, words]

end Statement

/-- Statements are spelled one after the other. -/
inductive SpellsAll : List Statement → List Token → Prop where
  | nil : SpellsAll [] []
  | cons {s : Statement} {body : List Statement} {a b : List Token} :
      s.Spells a → SpellsAll body b → SpellsAll (s :: body) (a ++ b)

theorem SpellsAll.map_word {body : List Statement} {tokens : List Token}
    (h : SpellsAll body tokens) : tokens.map Token.word = body.flatMap Statement.words := by
  induction h with
  | nil => rfl
  | cons hs _ ih => rw [List.map_append, hs.map_word, ih, List.flatMap_cons]

/-- The tokens of a statement are among those of all. -/
theorem SpellsAll.exists_spells {body : List Statement} {tokens : List Token}
    (h : SpellsAll body tokens) {s : Statement} (hs : s ∈ body) :
    ∃ a, s.Spells a ∧ a ⊆ tokens := by
  induction h with
  | nil => cases hs
  | @cons s' body a b hfirst _ ih =>
    rcases List.mem_cons.1 hs with rfl | hs
    · exact ⟨a, hfirst, List.subset_append_left a b⟩
    · obtain ⟨c, hc, hsub⟩ := ih hs
      exact ⟨c, hc, fun t ht => List.mem_append_right a (hsub ht)⟩

/-! ## Chains -/

/-- An operator with its token and the operand behind it with its tokens. -/
structure Link where
  op : BinaryOp
  sign : Token
  operand : Expr
  tokens : List Token

namespace Link

def all (x : Link) : List Token := x.sign :: x.tokens

/-- The operator is of the rank, and the operand behind it binds tighter. -/
structure IsOfRank (rank : Nat) (x : Link) : Prop where
  op : x.op.rank = rank
  sign : x.sign.word = x.op.word
  spells : x.operand.Spells x.tokens
  grouped : x.operand.Grouped
  lower : x.operand.rank < rank

end Link

/-- The chain of a first operand and the links behind it. -/
def chainOf (first : Expr) (links : List Link) : Expr :=
  first.chain (links.map fun x => (x.op, x.operand))

theorem chainOf_cons (first : Expr) (x : Link) (links : List Link) :
    chainOf first (x :: links) =
      chainOf (.binary x.op first x.operand (first.span.merge x.operand.span)) links := rfl

theorem chainOf_concat (first : Expr) (links : List Link) (x : Link) :
    chainOf first (links ++ [x]) =
      .binary x.op (chainOf first links) x.operand
        ((chainOf first links).span.merge x.operand.span) := by
  simp [chainOf, Expr.chain]

/-- What is chained is spelled in order, and is of the rank of the links. -/
theorem chain_spells {rank : Nat} {first : Expr} {tokens : List Token} {links : List Link}
    (hfirst : first.Spells tokens) (hgrouped : first.Grouped) (hrank : first.rank ≤ rank)
    (hlinks : ∀ x ∈ links, x.IsOfRank rank)
    (hsorted : Scanner.Sorted (tokens ++ links.flatMap Link.all)) :
    (chainOf first links).Spells (tokens ++ links.flatMap Link.all) ∧
      (chainOf first links).Grouped ∧ (chainOf first links).rank ≤ rank := by
  induction links generalizing first tokens with
  | nil =>
    rw [List.flatMap_nil, List.append_nil]
    exact ⟨hfirst, hgrouped, hrank⟩
  | cons x links ih =>
    have hx := hlinks x List.mem_cons_self
    have htokens : tokens ++ (x :: links).flatMap Link.all =
        (tokens ++ x.all) ++ links.flatMap Link.all := by
      rw [List.flatMap_cons, List.append_assoc]
    rw [htokens] at hsorted ⊢
    have hspan : first.span.merge x.operand.span = Scanner.cover (tokens ++ x.all) := by
      have hbefore : Scanner.Sorted (tokens ++ ([x.sign] ++ x.tokens)) :=
        (List.pairwise_append.1 hsorted).1
      rw [hfirst.span_eq, hx.spells.span_eq]
      exact Scanner.merge_cover hbefore hfirst.ne_nil hx.spells.ne_nil
    rw [chainOf_cons, hspan]
    refine ih (.binary hfirst hx.sign hx.spells) ?_ ?_
      (fun y hy => hlinks y (List.mem_cons_of_mem x hy)) hsorted
    · refine ⟨hgrouped, hx.grouped, ?_, ?_⟩
      · rw [hx.op]; exact hrank
      · rw [hx.op]; exact hx.lower
    · exact Nat.le_of_eq hx.op

/-- Every tree of a rank is a chain of trees of lower ranks. -/
theorem exists_chain {rank : Nat} (hpos : 0 < rank) {e : Expr} {tokens : List Token}
    (hspells : e.Spells tokens) (hgrouped : e.Grouped) (hrank : e.rank ≤ rank)
    (hsorted : Scanner.Sorted tokens) :
    ∃ (first : Expr) (start : List Token) (links : List Link),
      tokens = start ++ links.flatMap Link.all ∧ e = chainOf first links ∧
        first.Spells start ∧ first.Grouped ∧ first.rank < rank ∧
          ∀ x ∈ links, x.IsOfRank rank := by
  have hlower : ∀ {e : Expr} {tokens : List Token}, e.Spells tokens → e.Grouped → e.rank < rank →
      ∃ (first : Expr) (start : List Token) (links : List Link),
        tokens = start ++ links.flatMap Link.all ∧ e = chainOf first links ∧
          first.Spells start ∧ first.Grouped ∧ first.rank < rank ∧
            ∀ x ∈ links, x.IsOfRank rank := by
    intro e tokens hspells hgrouped hlt
    exact ⟨e, tokens, [], by simp, rfl, hspells, hgrouped, hlt,
      fun _ h => absurd h List.not_mem_nil⟩
  induction hspells with
  | number hkind => exact hlower (.number hkind) hgrouped hpos
  | regex hkind htext hflags => exact hlower (.regex hkind htext hflags) hgrouped hpos
  | ident hkind => exact hlower (.ident hkind) hgrouped hpos
  | paren hfirst hinner hlast _ => exact hlower (.paren hfirst hinner hlast) hgrouped hpos
  | @binary op left right a b t hleft hop hright ihl _ =>
    by_cases hlt : op.rank < rank
    · exact hlower (.binary hleft hop hright) hgrouped hlt
    · have heq : op.rank = rank := Nat.le_antisymm hrank (Nat.le_of_not_lt hlt)
      obtain ⟨hgl, hgr, hle, hgt⟩ := hgrouped
      rw [heq] at hle hgt
      obtain ⟨first, start, links, rfl, rfl, hfirst, hgf, hrf, hlinks⟩ :=
        ihl hgl hle (List.pairwise_append.1 hsorted).1
      refine ⟨first, start, links ++ [⟨op, t, right, b⟩], by simp [Link.all], ?_, hfirst, hgf, hrf,
        ?_⟩
      · rw [chainOf_concat, hleft.span_eq, hright.span_eq,
          Scanner.merge_cover (m := [t]) hsorted hleft.ne_nil hright.ne_nil]
        rfl
      · intro x hx
        rcases List.mem_append.1 hx with hx | hx
        · exact hlinks x hx
        · rw [List.mem_singleton.1 hx]
          exact ⟨heq, hop, hright, hgr, hgt⟩

end Ecma

end PredictiveParsing
