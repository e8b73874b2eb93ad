import FuzzyCalc.Proofs.Reachable

/-!
# Domains closed under operators

A domain is a set of numbers and of symbols such that the operators in it keep its numbers. If all
tokens come from a domain, then so does everything on the stack, at every turn of every push.
-/

namespace FuzzyCalc

/-- A set of numbers and symbols: no operator in it leads out of it. -/
structure Domain (p : Precision) where
  /-- The numbers. -/
  number : Decimal → Prop
  /-- The symbols. -/
  symbol : Symbol → Prop
  /-- Prefix operators stay inside. -/
  prefixOp {op : PrefixOp} {x y : Decimal} :
    symbol (.prefixOp op) → number x → op.apply p x = .ok y → number y
  /-- Postfix operators stay inside. -/
  postfixOp {op : PostfixOp} {x y : Decimal} :
    symbol (.postfixOp op) → number x → op.apply p x = .ok y → number y
  /-- Binary operators stay inside. -/
  binaryOp {op : BinaryOp} {x y z : Decimal} :
    symbol (.binaryOp op) → number x → number y → op.apply p x y = .ok z → number z

namespace Domain

open Stack

variable {p : Precision}

/-- A token from a domain. -/
def Contains (d : Domain p) : Token → Prop
  | .number x => d.number x
  | .symbol s => d.symbol s

variable {d : Domain p} {stack rest next : Stack} {token : Token} {x : Decimal}

/-- At every turn of a push, what is left of the stack is in the domain, and the number on its way
down is. -/
theorem settling (hs : ∀ t ∈ stack, d.Contains t) (ht : d.Contains token)
    (h : Settling p stack token rest x) : (∀ t ∈ rest, d.Contains t) ∧ d.number x := by
  induction h with
  | number stack x => exact ⟨hs, ht⟩
  | postfixOp below hy =>
    refine ⟨fun t h ↦ hs t (List.mem_cons_of_mem _ h), ?_⟩
    exact d.postfixOp ht (hs _ List.mem_cons_self) hy
  | closing x below =>
    refine ⟨fun t h ↦ hs t (List.mem_cons_of_mem _ (List.mem_cons_of_mem _ h)), ?_⟩
    exact hs _ List.mem_cons_self
  | throughPrefix _ hy ih =>
    obtain ⟨hrest, hx⟩ := ih hs ht
    refine ⟨fun t h ↦ hrest t (List.mem_cons_of_mem _ h), ?_⟩
    exact d.prefixOp (hrest _ List.mem_cons_self) hx hy
  | throughBinary _ hy ih =>
    obtain ⟨hrest, hx⟩ := ih hs ht
    refine ⟨fun t h ↦ hrest t (List.mem_cons_of_mem _ (List.mem_cons_of_mem _ h)), ?_⟩
    have left := hrest _ (List.mem_cons_of_mem _ List.mem_cons_self)
    exact d.binaryOp (hrest _ List.mem_cons_self) left hx hy

/-- A push stays in the domain. -/
theorem push (hs : ∀ t ∈ stack, d.Contains t) (ht : d.Contains token)
    (h : Stack.push p stack token = .ok next) : ∀ t ∈ next, d.Contains t := by
  rcases push_cases h with ⟨s, -, rfl⟩ | ⟨base, y, turn, rfl⟩
  · exact List.forall_mem_cons.mpr ⟨ht, hs⟩
  · obtain ⟨hbase, hy⟩ := settling hs ht turn
    exact List.forall_mem_cons.mpr ⟨hy, hbase⟩

/-- Many pushes stay in the domain. -/
theorem pushMany {tokens : List Token} (hs : ∀ t ∈ stack, d.Contains t)
    (ht : ∀ t ∈ tokens, d.Contains t) (h : Stack.pushMany p stack tokens = .ok next) :
    ∀ t ∈ next, d.Contains t := by
  induction tokens generalizing stack with
  | nil =>
    cases h
    exact hs
  | cons token tokens ih =>
    obtain ⟨hfirst, hrest⟩ := List.forall_mem_cons.mp ht
    rw [pushMany_cons] at h
    obtain ⟨middle, first, later⟩ := bind_eq_ok.mp h
    exact ih (push hs hfirst first) hrest later

/-- On the numbers of a domain its operators fail only for some causes. -/
structure FailsOnly (d : Domain p) (allowed : Cause → Prop) : Prop where
  /-- Prefix operators do. -/
  prefixOp {op : PrefixOp} {x : Decimal} {cause : Cause} :
    d.symbol (.prefixOp op) → d.number x → op.apply p x = .error cause → allowed cause
  /-- Postfix operators do. -/
  postfixOp {op : PostfixOp} {x : Decimal} {cause : Cause} :
    d.symbol (.postfixOp op) → d.number x → op.apply p x = .error cause → allowed cause
  /-- Binary operators do. -/
  binaryOp {op : BinaryOp} {x y : Decimal} {cause : Cause} :
    d.symbol (.binaryOp op) → d.number x → d.number y → op.apply p x y = .error cause →
      allowed cause

variable {allowed : Cause → Prop} {cause : Cause}

/-- A number on its way down is refused where it does not fit, or for a cause that its domain
allows. -/
theorem FailsOnly.settle (hd : d.FailsOnly allowed) (hs : ∀ t ∈ stack, d.Contains t)
    (hx : d.number x) (h : settle p stack x = .error (.fault cause)) :
    cause.kind = .grammar ∨ allowed cause := by
  induction stack, x using settle.induct p with
  | case1 x => cases h
  | case2 below x => cases h
  | case3 op below x y hy ih =>
    obtain ⟨hop, hbelow⟩ := List.forall_mem_cons.mp hs
    rw [settle_prefixOp, hy] at h
    exact ih hbelow (d.prefixOp hop hx hy) h
  | case4 op below x found hfound =>
    obtain ⟨hop, -⟩ := List.forall_mem_cons.mp hs
    rw [settle_prefixOp, hfound] at h
    cases h
    exact .inr (hd.prefixOp hop hx hfound)
  | case5 op left below x y hy ih =>
    obtain ⟨hop, hrest⟩ := List.forall_mem_cons.mp hs
    obtain ⟨hleft, hbelow⟩ := List.forall_mem_cons.mp hrest
    rw [settle_binaryOp, hy] at h
    exact ih hbelow (d.binaryOp hop hleft hx hy) h
  | case6 op left below x found hfound =>
    obtain ⟨hop, hrest⟩ := List.forall_mem_cons.mp hs
    obtain ⟨hleft, -⟩ := List.forall_mem_cons.mp hrest
    rw [settle_binaryOp, hfound] at h
    cases h
    exact .inr (hd.binaryOp hop hleft hx hfound)
  | case7 op below x noLeft =>
    rw [Stack.settle] at h
    · cases h
    · exact noLeft
  | case8 prior below x noOpening noPrefix noLeft noBinary =>
    rw [Stack.settle] at h
    · cases h
      exact .inl rfl
    · exact noOpening
    · exact noPrefix
    · exact noLeft
    · exact noBinary

/-- A token is refused where it does not fit, or for a cause that its domain allows. -/
theorem FailsOnly.push (hd : d.FailsOnly allowed) (hshape : WellShaped stack)
    (hs : ∀ t ∈ stack, d.Contains t) (ht : d.Contains token)
    (h : Stack.push p stack token = .error (.fault cause)) :
    cause.kind = .grammar ∨ allowed cause := by
  by_cases hf : Fits stack token
  · match token, hf with
    | .number x, _ => exact hd.settle hs ht h
    | .symbol (.prefixOp op), ha => cases h.symm.trans (awaitOperand_awaiting ha _)
    | .symbol (.separator .opening), ha => cases h.symm.trans (awaitOperand_awaiting ha _)
    | .symbol (.binaryOp op), htop =>
      obtain ⟨x, below, rfl⟩ := htop
      cases h
    | .symbol (.postfixOp op), htop =>
      obtain ⟨x, below, rfl⟩ := htop
      obtain ⟨hx, hbelow⟩ := List.forall_mem_cons.mp hs
      rw [push_postfixOp] at h
      cases hy : op.apply p x with
      | ok y =>
        rw [hy] at h
        exact hd.settle hbelow (d.postfixOp ht hx hy) h
      | error found =>
        rw [hy] at h
        cases h
        exact .inr (hd.postfixOp ht hx hy)
    | .symbol (.separator .closing), htop =>
      obtain ⟨x, below, rfl⟩ := htop
      obtain ⟨hx, hrest⟩ := List.forall_mem_cons.mp hs
      exact hd.settle (List.forall_mem_cons.mp hrest).2 hx h
  · obtain ⟨found, refused, kind, -⟩ := push_not_fits (p := p) hshape hf
    cases h.symm.trans refused
    exact .inl kind

end Domain

end FuzzyCalc
