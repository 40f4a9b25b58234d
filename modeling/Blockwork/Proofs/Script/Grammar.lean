import Mathlib
import Blockwork.Script.Expression

/-!
# The grammar of expressions

The expressions of a script as a grammar over tokens, said without any reader. Its levels go from
the operators that bind loosest to the operands that are no operations at all: `||`, `&&`, equality,
comparison, sums, products, prefix operators, and the primary expressions. On the level of an
operator with two operands its left operand may be another operation of the level, and its right one
is of the next tighter level, so operations of one level group from the left. An expression of a
tighter level is one of every looser level (`Derives.of_tighter`).

`Derives l n ts e` is a derivation of the tree `e` from the tokens `ts` on the level `l`. The places
in a tree play no part, so a tree may have any. `n` counts how deep the derivation is nested, where
the expression itself is one level, and each parenthesis, each argument of a call, each operand of a
prefix operator and each right operand is one level more for what is in it.
-/

namespace Blockwork.Script

/-- The levels of the grammar, from the one that binds loosest. -/
inductive Level where
  | or
  | and
  | equality
  | comparison
  | sum
  | product
  | prefixed
  | primary
deriving DecidableEq

namespace Level

/-- The level that binds next tighter. -/
def tighter : Level → Level
  | or => and
  | and => equality
  | equality => comparison
  | comparison => sum
  | sum => product
  | product => prefixed
  | prefixed => primary
  | primary => primary

/-- The operators of the level that stand between two operands. -/
def operators : Level → List (Mark × BinaryOp)
  | or => [(.or, .or)]
  | and => [(.and, .and)]
  | equality => [(.equal, .equal), (.notEqual, .notEqual)]
  | comparison =>
    [(.less, .less), (.greater, .greater), (.lessEqual, .lessEqual), (.greaterEqual, .greaterEqual)]
  | sum => [(.plus, .add), (.minus, .subtract)]
  | product => [(.star, .multiply), (.slash, .divide), (.percent, .remainder)]
  | prefixed => []
  | primary => []

end Level

/-- The operators that stand before their operand. -/
def prefixOperators : List (Mark × UnaryOp) :=
  [(.not, .not), (.minus, .negate)]

/-- Tokens with their tree, and how deep the derivation of it is nested. -/
structure Phrase where
  nesting : Nat
  tokens : List Token
  tree : Expr

/-- The tokens of arguments, with a comma between each two. -/
def argumentTokens (arguments : List Phrase) : List Token :=
  List.intercalate [.mark .comma] (arguments.map Phrase.tokens)

/-- **The grammar.** The tokens are an expression of the level with this tree. -/
inductive Derives : Level → Nat → List Token → Expr → Prop
  | number (x : Float) : Derives .primary 1 [.number x] (.number x)
  | text (s : String) : Derives .primary 1 [.text s] (.text s)
  | true : Derives .primary 1 [.keyword .true] (.bool true)
  | false : Derives .primary 1 [.keyword .false] (.bool false)
  | name (word : String) (place : Span) : Derives .primary 1 [.name word] (.var word place)
  | call (f : String) (place : Span) {arguments : List Phrase} :
      (∀ a ∈ arguments, Derives .or a.nesting a.tokens a.tree) →
      Derives .primary ((arguments.map (·.nesting + 1)).foldr max 1)
        (.name f :: .mark .openParen :: (argumentTokens arguments ++ [.mark .closeParen]))
        (.call f (arguments.map Phrase.tree) place)
  | parenthesis {n : Nat} {ts : List Token} {e : Expr} :
      Derives .or n ts e →
      Derives .primary (n + 1) (.mark .openParen :: (ts ++ [.mark .closeParen])) e
  | prefixed {m : Mark} {op : UnaryOp} {n : Nat} {ts : List Token} {e : Expr} :
      (m, op) ∈ prefixOperators → Derives .prefixed n ts e →
      Derives .prefixed (n + 1) (.mark m :: ts) (.unary op e)
  | operation {l : Level} {m : Mark} {op : BinaryOp} {n k : Nat} {ts us : List Token}
      {left right : Expr} (place : Span) :
      (m, op) ∈ l.operators → Derives l n ts left → Derives l.tighter k us right →
      Derives l (max n (k + 1)) (ts ++ .mark m :: us) (.binary op left right place)
  | of_tighter {l : Level} {n : Nat} {ts : List Token} {e : Expr} :
      Derives l.tighter n ts e → Derives l n ts e

namespace Derives

variable {l l' : Level} {n : Nat} {ts : List Token} {e : Expr}

/-- The expression itself is one level. -/
theorem nesting_pos (h : Derives l n ts e) : 0 < n := by
  induction h with
  | number | text | true | false | name | parenthesis | prefixed => omega
  | call f place h ih =>
    rename_i arguments
    induction arguments with
    | nil => exact Nat.one_pos
    | cons a rest ih' =>
      exact lt_max_of_lt_left (Nat.succ_pos a.nesting)
  | operation place hop h h' ih ih' => exact lt_max_of_lt_left ih
  | of_tighter h ih => exact ih

/-- An expression has tokens, and the first one closes no parenthesis. -/
theorem exists_first (h : Derives l n ts e) :
    ∃ t us, ts = t :: us ∧ t ≠ .mark .closeParen := by
  induction h with
  | operation place hop h h' ih ih' =>
    obtain ⟨t, us, rfl, ht⟩ := ih
    exact ⟨t, _, rfl, ht⟩
  | of_tighter h ih => exact ih
  | prefixed hop h ih =>
    refine ⟨_, _, rfl, fun heq => ?_⟩
    cases heq
    simp [prefixOperators] at hop
  | _ => exact ⟨_, _, rfl, by simp⟩

end Derives

/-! ### How tightly the levels bind -/

namespace Level

/-- How tightly the operators of a level bind. -/
def power : Level → Nat
  | or => 4
  | and => 6
  | equality => 8
  | comparison => 10
  | sum => 12
  | product => 14
  | prefixed => 16
  | primary => 18

theorem power_le_tighter (l : Level) : l.power ≤ l.tighter.power := by
  cases l <;> decide

theorem eq_or_tighter_le {l l' : Level} (h : l.power ≤ l'.power) :
    l = l' ∨ l.power < l.tighter.power ∧ l.tighter.power ≤ l'.power := by
  revert h
  cases l <;> cases l' <;> decide

/-- The operators of a level are operators of the reader, and bind as tightly as the level. -/
theorem binaryOp?_of_mem {l : Level} {m : Mark} {op : BinaryOp} (h : (m, op) ∈ l.operators) :
    m.binaryOp? = some op ∧ op.power = l.power := by
  have hall : ∀ p ∈ l.operators, p.1.binaryOp? = some p.2 ∧ p.2.power = l.power := by
    cases l <;> decide
  exact hall (m, op) h

/-- Every operator of the reader belongs to a level. -/
theorem exists_mem_operators {m : Mark} {op : BinaryOp} (h : m.binaryOp? = some op) :
    ∃ l : Level, (m, op) ∈ l.operators := by
  cases m <;> cases h
  case or => exact ⟨or, by decide⟩
  case and => exact ⟨and, by decide⟩
  case equal | notEqual => exact ⟨equality, by decide⟩
  case less | lessEqual | greater | greaterEqual => exact ⟨comparison, by decide⟩
  case plus | minus => exact ⟨sum, by decide⟩
  case star | slash | percent => exact ⟨product, by decide⟩

end Level

/-- **Looser levels** have all expressions of the tighter ones. -/
theorem Derives.of_power_le {l l' : Level} {n : Nat} {ts : List Token} {e : Expr}
    (h : Derives l' n ts e) (hle : l.power ≤ l'.power) : Derives l n ts e := by
  rcases Level.eq_or_tighter_le hle with rfl | ⟨hlt, hle'⟩
  · exact h
  · exact .of_tighter (h.of_power_le hle')
termination_by l'.power - l.power

end Blockwork.Script
