import FuzzyCalc.Proofs.Reduction

/-!
# Beginnings of sentences

A sentence is what the tokens of a level are. Tokens that have been taken can always be completed to
a sentence, and so can one more token wherever it fits. A token that does not fit is refused for its
place, and then no sentence begins with tokens of these kinds: refusals for the place come as early
as they can, and the numbers play no part in them.
-/

namespace FuzzyCalc

open Stack

/-! ### Kinds -/

/-- The kinds of tokens that the grammar tells apart. -/
inductive Token.Kind where
  /-- A number. -/
  | number
  /-- An opening parenthesis. -/
  | opening
  /-- A closing parenthesis. -/
  | closing
  /-- An operator in front of its operand. -/
  | prefixOp
  /-- An operator behind its operand. -/
  | postfixOp
  /-- An operator between its operands. -/
  | binaryOp
  deriving DecidableEq, Repr, Inhabited

/-- The kind of a token. -/
def Token.kind : Token → Token.Kind
  | .number _ => .number
  | .symbol (.separator .opening) => .opening
  | .symbol (.separator .closing) => .closing
  | .symbol (.prefixOp _) => .prefixOp
  | .symbol (.postfixOp _) => .postfixOp
  | .symbol (.binaryOp _) => .binaryOp

/-- What the tokens of a kind look like. -/
def Token.Kind.Covers (token : Token) : Token.Kind → Prop
  | .number => ∃ x, token = .number x
  | .opening => token = .opening
  | .closing => token = .closing
  | .prefixOp => ∃ op, token = .symbol (.prefixOp op)
  | .postfixOp => ∃ op, token = .symbol (.postfixOp op)
  | .binaryOp => ∃ op, token = .symbol (.binaryOp op)

/-- A token looks like its kind. -/
theorem Token.kind_covers (token : Token) : token.kind.Covers token := by
  match token with
  | .number x => exact ⟨x, rfl⟩
  | .symbol (.separator .opening) => rfl
  | .symbol (.separator .closing) => rfl
  | .symbol (.prefixOp op) => exact ⟨op, rfl⟩
  | .symbol (.postfixOp op) => exact ⟨op, rfl⟩
  | .symbol (.binaryOp op) => exact ⟨op, rfl⟩

/-- A token of a kind looks like the kind. -/
theorem Token.covers_of_kind {token : Token} {k : Token.Kind} (h : token.kind = k) :
    k.Covers token := h ▸ token.kind_covers

mutual

/-- Tokens of the kinds of an operand are an operand. -/
theorem Operand.exists_of_kinds (operand : Operand) {tokens : List Token}
    (h : tokens.map Token.kind = operand.tokens.map Token.kind) :
    ∃ other : Operand, other.tokens = tokens := by
  cases operand with
  | number x =>
    obtain ⟨token, rest, rfl, hkind, hrest⟩ := List.map_eq_cons_iff.mp h
    obtain rfl := List.map_eq_nil_iff.mp hrest
    obtain ⟨y, rfl⟩ := Token.covers_of_kind hkind
    exact ⟨.number y, rfl⟩
  | group level =>
    rw [Operand.tokens, List.map_cons, List.map_append] at h
    obtain ⟨first, rest, rfl, hfirst, hrest⟩ := List.map_eq_cons_iff.mp h
    obtain ⟨inner, last, rfl, hinner, hlast⟩ := List.map_eq_append_iff.mp hrest
    obtain ⟨token, none, rfl, hkind, hnone⟩ := List.map_eq_cons_iff.mp hlast
    obtain rfl := List.map_eq_nil_iff.mp hnone
    obtain rfl := Token.covers_of_kind hfirst
    obtain rfl := Token.covers_of_kind hkind
    obtain ⟨other, rfl⟩ := Level.exists_of_kinds level hinner
    exact ⟨.group other, rfl⟩
  | prefixed op operand =>
    obtain ⟨first, rest, rfl, hfirst, hrest⟩ := List.map_eq_cons_iff.mp h
    obtain ⟨op, rfl⟩ := Token.covers_of_kind hfirst
    obtain ⟨other, rfl⟩ := Operand.exists_of_kinds operand hrest
    exact ⟨.prefixed op other, rfl⟩

/-- Tokens of the kinds of a level are a level. -/
theorem Level.exists_of_kinds (level : Level) {tokens : List Token}
    (h : tokens.map Token.kind = level.tokens.map Token.kind) :
    ∃ other : Level, other.tokens = tokens := by
  cases level with
  | single operand =>
    obtain ⟨other, rfl⟩ := Operand.exists_of_kinds operand h
    exact ⟨.single other, rfl⟩
  | binary left op right =>
    rw [Level.tokens, List.map_append] at h
    obtain ⟨first, rest, rfl, hfirst, hrest⟩ := List.map_eq_append_iff.mp h
    obtain ⟨token, last, rfl, hkind, hlast⟩ := List.map_eq_cons_iff.mp hrest
    obtain ⟨op, rfl⟩ := Token.covers_of_kind hkind
    obtain ⟨other, rfl⟩ := Level.exists_of_kinds left hfirst
    obtain ⟨operand, rfl⟩ := Operand.exists_of_kinds right hlast
    exact ⟨.binary other op operand, rfl⟩
  | postfixed level op =>
    rw [Level.tokens, List.map_append] at h
    obtain ⟨first, last, rfl, hfirst, hlast⟩ := List.map_eq_append_iff.mp h
    obtain ⟨token, none, rfl, hkind, hnone⟩ := List.map_eq_cons_iff.mp hlast
    obtain rfl := List.map_eq_nil_iff.mp hnone
    obtain ⟨op, rfl⟩ := Token.covers_of_kind hkind
    obtain ⟨other, rfl⟩ := Level.exists_of_kinds level hfirst
    exact ⟨.postfixed other op, rfl⟩

end

/-- Some sentence begins with tokens of these kinds. -/
def Begins (kinds : List Token.Kind) : Prop :=
  ∃ sentence : Level, kinds <+: sentence.tokens.map Token.kind

/-- If a sentence begins with tokens of some kinds, one begins with any tokens of these kinds. -/
theorem Begins.exists_level {tokens : List Token} (h : Begins (tokens.map Token.kind)) :
    ∃ sentence : Level, tokens <+: sentence.tokens := by
  obtain ⟨sentence, rest, hrest⟩ := h
  obtain ⟨first, last, hsentence, hfirst, hlast⟩ := List.map_eq_append_iff.mp hrest.symm
  have same : (tokens ++ last).map Token.kind = sentence.tokens.map Token.kind := by
    rw [hsentence, List.map_append, List.map_append, hfirst]
  obtain ⟨other, hother⟩ := sentence.exists_of_kinds same
  exact ⟨other, last, hother.symm⟩

/-- What a sentence begins with, it begins with by its kinds. -/
theorem begins_of_sentence {tokens : List Token} {sentence : Level}
    (h : tokens <+: sentence.tokens) : Begins (tokens.map Token.kind) :=
  ⟨sentence, h.map Token.kind⟩

/-! ### Completing what has been read -/

/-- Behind these tokens any level can stand. -/
def OpensLevel (tokens : List Token) : Prop :=
  ∀ level : Level, ∃ sentence : Level, tokens ++ level.tokens <+: sentence.tokens

/-- Behind these tokens any operand can stand. -/
def OpensOperand (tokens : List Token) : Prop :=
  ∀ operand : Operand, ∃ sentence : Level, tokens ++ operand.tokens <+: sentence.tokens

section

variable {tokens : List Token}

/-- A level can stand at the beginning. -/
theorem opensLevel_nil : OpensLevel [] := fun level ↦ ⟨level, List.prefix_rfl⟩

/-- Where a level can stand, an operand can. -/
theorem OpensLevel.operand (h : OpensLevel tokens) : OpensOperand tokens :=
  fun operand ↦ h (.single operand)

/-- Tokens behind which an operand can stand are the beginning of a sentence. -/
theorem OpensOperand.exists_sentence (h : OpensOperand tokens) :
    ∃ sentence : Level, tokens <+: sentence.tokens := by
  obtain ⟨sentence, hsentence⟩ := h (.number .zero)
  exact ⟨sentence, (List.prefix_append _ _).trans hsentence⟩

/-- In parentheses a level can stand. -/
theorem OpensOperand.opening (h : OpensOperand tokens) : OpensLevel (tokens ++ [.opening]) := by
  intro level
  obtain ⟨sentence, hsentence⟩ := h (.group level)
  refine ⟨sentence, List.IsPrefix.trans ⟨[.closing], ?_⟩ hsentence⟩
  simp [Operand.tokens]

/-- Behind a prefix operator an operand can stand. -/
theorem OpensOperand.prefixOp (h : OpensOperand tokens) (op : PrefixOp) :
    OpensOperand (tokens ++ [.symbol (.prefixOp op)]) := by
  intro operand
  obtain ⟨sentence, hsentence⟩ := h (.prefixed op operand)
  refine ⟨sentence, ?_⟩
  rwa [List.append_assoc]

/-- Behind a level and a binary operator an operand can stand. -/
theorem OpensLevel.binaryOp (h : OpensLevel tokens) (level : Level) (op : BinaryOp) :
    OpensOperand (tokens ++ level.tokens ++ [.symbol (.binaryOp op)]) := by
  intro operand
  obtain ⟨sentence, hsentence⟩ := h (.binary level op operand)
  refine ⟨sentence, ?_⟩
  rwa [List.append_assoc, List.append_assoc]

end

namespace PartlyRead

variable {p : Precision} {tokens : List Token} {stack : Stack} {token : Token}

/-- At the bottom of a level a level can stand, and where an operand is awaited an operand can. A
number on top is a level that has been read where it can stand. -/
theorem opens (h : PartlyRead p tokens stack) :
    (AtBase stack → OpensLevel tokens) ∧ (Awaiting stack → OpensOperand tokens) ∧
      ∀ x below, stack = .number x :: below → ∃ (before : List Token) (level : Level),
        tokens = before ++ level.tokens ∧ PartlyRead p before below ∧ OpensLevel before := by
  induction h with
  | start => exact ⟨fun _ ↦ opensLevel_nil, fun _ ↦ opensLevel_nil.operand, nofun⟩
  | opening _ ha ih =>
    have opened := (ih.2.1 ha).opening
    exact ⟨fun _ ↦ opened, fun _ ↦ opened.operand, nofun⟩
  | prefixOp op _ ha ih => exact ⟨nofun, fun _ ↦ (ih.2.1 ha).prefixOp op, nofun⟩
  | level level hbelow hb _ ih =>
    refine ⟨nofun, ?_, ?_⟩
    · rintro (h | _ | _)
      cases h
    · rintro x below heq
      cases heq
      exact ⟨_, level, rfl, hbelow, ih.1 hb⟩
  | binaryOp op _ ih =>
    obtain ⟨before, level, rfl, -, opened⟩ := ih.2.2 _ _ rfl
    exact ⟨nofun, fun _ ↦ opened.binaryOp level op, nofun⟩

/-- What has been read is the beginning of a sentence. -/
theorem exists_sentence (h : PartlyRead p tokens stack) :
    ∃ sentence : Level, tokens <+: sentence.tokens := by
  rcases h.wellShaped.awaiting_or_number with ha | ⟨x, below, rfl⟩
  · exact (h.opens.2.1 ha).exists_sentence
  · obtain ⟨before, level, rfl, -, opened⟩ := h.opens.2.2 x below rfl
    exact opened level

/-- With a token that fits it still is. -/
theorem exists_sentence_of_fits (h : PartlyRead p tokens stack) (hf : Fits stack token) :
    ∃ sentence : Level, tokens ++ [token] <+: sentence.tokens := by
  match token, hf with
  | .number x, ha => exact h.opens.2.1 ha (.number x)
  | .symbol (.prefixOp op), ha => exact ((h.opens.2.1 ha).prefixOp op).exists_sentence
  | .symbol (.separator .opening), ha => exact (h.opens.2.1 ha).opening.operand.exists_sentence
  | .symbol (.binaryOp op), htop =>
    obtain ⟨x, below, rfl⟩ := htop
    obtain ⟨before, level, rfl, -, opened⟩ := h.opens.2.2 x below rfl
    exact (opened.binaryOp level op).exists_sentence
  | .symbol (.postfixOp op), htop =>
    obtain ⟨x, below, rfl⟩ := htop
    obtain ⟨before, level, rfl, -, opened⟩ := h.opens.2.2 x below rfl
    obtain ⟨sentence, hsentence⟩ := opened (.postfixed level op)
    refine ⟨sentence, ?_⟩
    rwa [List.append_assoc]
  | .symbol (.separator .closing), htop =>
    obtain ⟨x, below, rfl⟩ := htop
    obtain ⟨before, level, rfl, hbefore, -⟩ := h.opens.2.2 x _ rfl
    cases hbefore with
    | opening houter ha =>
      obtain ⟨sentence, hsentence⟩ := houter.opens.2.1 ha (.group level)
      refine ⟨sentence, ?_⟩
      rwa [List.append_assoc, List.append_assoc]

end PartlyRead

/-! ### Refusals -/

namespace Stack

variable {p : Precision} {stack : Stack} {token : Token} {cause : Cause} {before : List Token}

/-- A token is refused because of its place. -/
def Misplaced (p : Precision) (stack : Stack) (token : Token) : Prop :=
  ∃ cause, push p stack token = .error (.fault cause) ∧ cause.kind = .grammar

/-- A token that goes on towards a sentence is only refused by an operator. -/
theorem kind_of_refusal {sentence : Level} (hs : before ++ [token] <+: sentence.tokens)
    (hb : pushMany p [] before = .ok stack) (h : push p stack token = .error (.fault cause)) :
    cause.kind = .domain := by
  obtain ⟨rest, hrest⟩ := hs
  have refused : pushMany p [] sentence.tokens = .error (.fault cause) := by
    rw [← hrest, List.append_assoc, pushMany_append, hb]
    change pushMany p stack (token :: rest) = _
    rw [pushMany_cons, h]
    rfl
  rw [Level.pushMany_tokens p sentence .bottom] at refused
  rcases bind_eq_error.mp refused with failed | ⟨x, -, taken⟩
  · obtain ⟨other, hother, heq⟩ := mapError_eq_error.mp failed
    cases heq
    exact sentence.kind_of_eval hother
  · cases taken

/-- On a well-shaped stack a token is misplaced exactly if it does not fit. -/
theorem WellShaped.misplaced_iff (hs : WellShaped stack) :
    Misplaced p stack token ↔ ¬ Fits stack token := by
  constructor
  · rintro ⟨cause, refused, hgrammar⟩ hf
    rcases push_fits (p := p) hs hf with ⟨next, taken, -⟩ | ⟨other, failed, hdomain⟩
    · cases refused.symm.trans taken
    · cases refused.symm.trans failed
      cases hgrammar.symm.trans hdomain
  · intro hf
    obtain ⟨cause, refused, hgrammar, -⟩ := push_not_fits (p := p) hs hf
    exact ⟨cause, refused, hgrammar⟩

/-- Behind tokens that have been taken, a token is misplaced exactly if no sentence begins like
that. -/
theorem misplaced_iff_not_begins (h : pushMany p [] before = .ok stack) :
    Misplaced p stack token ↔ ¬ Begins ((before ++ [token]).map Token.kind) := by
  have read : PartlyRead p before stack := PartlyRead.start.pushMany h
  constructor
  · rintro ⟨cause, refused, hgrammar⟩ begun
    obtain ⟨sentence, hsentence⟩ := begun.exists_level
    cases hgrammar.symm.trans (kind_of_refusal hsentence h refused)
  · intro begun
    rw [read.wellShaped.misplaced_iff]
    intro hf
    obtain ⟨sentence, hsentence⟩ := read.exists_sentence_of_fits hf
    exact begun (begins_of_sentence hsentence)

/-- Refusals for the place come as early as they can, and only where they must. Behind tokens that
have been taken, a token is refused for its place exactly if no sentence begins with tokens of these
kinds; otherwise it is taken, or an operator fails. Only the kinds matter: with other numbers, other
operators of the same kinds and another precision, the refusals for the place are the same, and so
are the sentences. -/
theorem refused_iff_no_sentence_begins (p : Precision) (before : List Token) (token : Token)
    (stack : Stack) (h : pushMany p [] before = .ok stack) :
    (Misplaced p stack token ↔ ¬ Begins ((before ++ [token]).map Token.kind)) ∧
    (¬ Misplaced p stack token → (∃ next, push p stack token = .ok next) ∨
      ∃ cause, push p stack token = .error (.fault cause) ∧ cause.kind = .domain) ∧
    (∀ p' before' token' stack', pushMany p' [] before' = .ok stack' →
      (before' ++ [token']).map Token.kind = (before ++ [token]).map Token.kind →
      (Misplaced p' stack' token' ↔ Misplaced p stack token)) ∧
    ∀ (sentence : Level) (tokens : List Token),
      tokens.map Token.kind = sentence.tokens.map Token.kind →
      ∃ other : Level, other.tokens = tokens := by
  have read : PartlyRead p before stack := PartlyRead.start.pushMany h
  refine ⟨misplaced_iff_not_begins h, ?_, ?_, fun sentence _ ↦ sentence.exists_of_kinds⟩
  · intro placed
    rw [read.wellShaped.misplaced_iff, Classical.not_not] at placed
    rcases push_fits (p := p) read.wellShaped placed with ⟨next, taken, -⟩ | failed
    · exact .inl ⟨next, taken⟩
    · exact .inr failed
  · intro p' before' token' stack' h' same
    rw [misplaced_iff_not_begins h', misplaced_iff_not_begins h, same]

/-- Behind `1 / ~` no sentence goes on with a closing parenthesis. One goes on with any number: `1`
is refused there, but for the division by zero and not for its place. -/
theorem refused_behind_complement :
    let before : List Token :=
      [.number .one, .symbol (.binaryOp .quotient), .symbol (.prefixOp .complement)]
    ∃ stack, pushMany .standard [] before = .ok stack ∧
      ¬ Begins ((before ++ [Token.closing]).map Token.kind) ∧
      ¬ Misplaced .standard stack (.number .one) ∧
      push .standard stack (.number .one) = .error (.fault (.nonpositiveDivisor .zero)) := by
  intro before
  have taken : pushMany .standard [] before = .ok before.reverse := rfl
  have begun : Begins ((before ++ [Token.number .one]).map Token.kind) :=
    ⟨.binary (.single (.number .one)) .quotient (.prefixed .complement (.number .one)),
      List.prefix_rfl⟩
  refine ⟨before.reverse, taken, ?_, ?_, rfl⟩
  · exact (refused_iff_no_sentence_begins .standard before .closing _ taken).1.mp ⟨_, rfl, rfl⟩
  · intro misplaced
    exact (refused_iff_no_sentence_begins .standard before _ _ taken).1.mp misplaced begun

end Stack

end FuzzyCalc
