import FuzzyCalc.Decimal.Numeral

/-!
# Symbols and tokens

A token is a number or one of twenty-one symbols: two parentheses, three prefix operators, one
postfix operator and fifteen binary operators. Every symbol has one spelling of one or two
characters, and no two symbols share one.
-/

namespace FuzzyCalc

/-- The parentheses. -/
inductive Separator where
  /-- The symbol `(`. -/
  | opening
  /-- The symbol `)`. -/
  | closing
  deriving DecidableEq, Repr, Inhabited

/-- The operators in front of their operand. -/
inductive PrefixOp where
  /-- The symbol `~`: one minus the operand. -/
  | complement
  /-- The symbol `<>`: whether the operand is above zero. -/
  | possible
  /-- The symbol `[]`: whether the operand is at least one. -/
  | certain
  deriving DecidableEq, Repr, Inhabited

/-- The operators behind their operand. -/
inductive PostfixOp where
  /-- The symbol `%`: one hundredth of the operand. -/
  | percent
  deriving DecidableEq, Repr, Inhabited

/-- The operators between two operands. -/
inductive BinaryOp where
  /-- The symbol `=`. -/
  | equal
  /-- The symbol `<`. -/
  | less
  /-- The symbol `>`. -/
  | more
  /-- The symbol `~=`. -/
  | notEqual
  /-- The symbol `<=`. -/
  | lessOrEqual
  /-- The symbol `>=`. -/
  | moreOrEqual
  /-- The symbol `+`. -/
  | sum
  /-- The symbol `-`: the distance between the operands. -/
  | difference
  /-- The symbol `*`. -/
  | product
  /-- The symbol `/`. -/
  | quotient
  /-- The symbol `^`. -/
  | power
  /-- The symbol `!`. -/
  | minimum
  /-- The symbol `@`. -/
  | average
  /-- The symbol `#`. -/
  | maximum
  /-- The symbol `$`: the sum less the product. -/
  | disjunction
  deriving DecidableEq, Repr, Inhabited

/-- A symbol of any of the four kinds. -/
inductive Symbol where
  /-- A parenthesis. -/
  | separator (s : Separator)
  /-- An operator in front of its operand. -/
  | prefixOp (op : PrefixOp)
  /-- An operator behind its operand. -/
  | postfixOp (op : PostfixOp)
  /-- An operator between its operands. -/
  | binaryOp (op : BinaryOp)
  deriving DecidableEq, Repr, Inhabited

/-- A number or a symbol. -/
inductive Token where
  /-- A number, read or computed. -/
  | number (x : Decimal)
  /-- A symbol. -/
  | symbol (s : Symbol)
  deriving DecidableEq, Repr, Inhabited

/-- The spelling of a parenthesis. -/
def Separator.spelling : Separator → List Char
  | .opening => ['(']
  | .closing => [')']

/-- The spelling of a prefix operator. -/
def PrefixOp.spelling : PrefixOp → List Char
  | .complement => ['~']
  | .possible => ['<', '>']
  | .certain => ['[', ']']

/-- The spelling of a postfix operator. -/
def PostfixOp.spelling : PostfixOp → List Char
  | .percent => ['%']

/-- The spelling of a binary operator. -/
def BinaryOp.spelling : BinaryOp → List Char
  | .equal => ['=']
  | .less => ['<']
  | .more => ['>']
  | .notEqual => ['~', '=']
  | .lessOrEqual => ['<', '=']
  | .moreOrEqual => ['>', '=']
  | .sum => ['+']
  | .difference => ['-']
  | .product => ['*']
  | .quotient => ['/']
  | .power => ['^']
  | .minimum => ['!']
  | .average => ['@']
  | .maximum => ['#']
  | .disjunction => ['$']

namespace Symbol

/-- The spelling of a symbol. -/
def spelling : Symbol → List Char
  | separator s => s.spelling
  | prefixOp op => op.spelling
  | postfixOp op => op.spelling
  | binaryOp op => op.spelling

/-- All symbols. -/
def all : List Symbol :=
  [.separator .opening, .separator .closing,
    .prefixOp .complement, .prefixOp .possible, .prefixOp .certain,
    .postfixOp .percent,
    .binaryOp .equal, .binaryOp .less, .binaryOp .more, .binaryOp .notEqual,
    .binaryOp .lessOrEqual, .binaryOp .moreOrEqual, .binaryOp .sum, .binaryOp .difference,
    .binaryOp .product, .binaryOp .quotient, .binaryOp .power, .binaryOp .minimum,
    .binaryOp .average, .binaryOp .maximum, .binaryOp .disjunction]

/-- The symbol with exactly this spelling. -/
def ofSpelling? (text : List Char) : Option Symbol := all.find? (·.spelling == text)

/-- Every symbol is in the list of all symbols. -/
theorem mem_all (s : Symbol) : s ∈ all := by
  rcases s with s | op | op | op <;> first | cases s; all_goals decide | cases op; all_goals decide

/-- A symbol is found by its spelling, so no two symbols share one. -/
theorem ofSpelling?_spelling (s : Symbol) : ofSpelling? s.spelling = some s := by
  rcases s with s | op | op | op <;> first | cases s; all_goals decide | cases op; all_goals decide

/-- Only the spelling of a symbol finds it. -/
theorem spelling_of_ofSpelling? {text : List Char} {s : Symbol} (h : ofSpelling? text = some s) :
    s.spelling = text := by
  have found := List.find?_some h
  simpa using found

end Symbol

namespace Token

/-- The token for an opening parenthesis. -/
abbrev opening : Token := .symbol (.separator .opening)

/-- The token for a closing parenthesis. -/
abbrev closing : Token := .symbol (.separator .closing)

/-- The text of a token: the numeral of a number, the spelling of a symbol. -/
def spelling : Token → List Char
  | number x => x.numeral
  | symbol s => s.spelling

/-- The texts of the tokens, one after the other. -/
def spellAll (tokens : List Token) : List Char := tokens.flatMap spelling

end Token

end FuzzyCalc
