import StyleCascade.Proofs.Sheet.Invariant
import StyleCascade.Proofs.Token.Tiling

namespace StyleCascade

theorem length_tokensOf_le (source : List UInt8) : (tokensOf source).length ≤ source.length := by
  have filled : ∀ token ∈ tokensOf source, 1 ≤ token.bytes.length := fun token mem =>
    List.length_pos_iff.mpr (Lexeme.bytes_ne_nil_of_mem_readFrom mem)
  have counted (lexemes : List Lexeme)
      (filled : ∀ token ∈ Lexeme.tokens lexemes, 1 ≤ token.bytes.length) :
      (Lexeme.tokens lexemes).length ≤ (lexemes.flatMap Lexeme.bytes).length := by
    induction lexemes with
    | nil => exact Nat.le_refl 0
    | cons first rest ih =>
      rw [List.flatMap_cons, List.length_append]
      cases first with
      | token found =>
        rw [Lexeme.tokens_token] at filled ⊢
        obtain ⟨one, more⟩ := List.forall_mem_cons.mp filled
        have := ih more
        simp only [List.length_cons, Lexeme.bytes]
        omega
      | invalid offset bytes => exact Nat.le_trans (ih filled) (Nat.le_add_left _ _)
  have whole := counted (Lexeme.read source) filled
  rwa [Lexeme.read, Lexeme.flatMap_bytes_readFrom] at whole

namespace Specificity

/-- The conditions that count, of all kinds together. -/
def total (specificity : Specificity) : Nat :=
  specificity.ids + specificity.classes + specificity.types

end Specificity

theorem total_specificityOf_le (conditions : List Weighted) :
    (specificityOf conditions).total ≤ conditions.length := by
  have single (weight : Weight) : weight.specificity.total ≤ 1 := by
    cases weight <;> decide
  have counted (start : Specificity) :
      (conditions.foldl (fun total weighted => total.add weighted.2.specificity) start).total ≤
        start.total + conditions.length := by
    induction conditions generalizing start with
    | nil => exact Nat.le_refl _
    | cons first rest ih =>
      have one := single first.2
      have more := ih (start.add first.2.specificity)
      simp only [List.foldl_cons, List.length_cons, Specificity.total, Specificity.add] at *
      omega
  have whole := counted .zero
  rwa [show Specificity.zero.total = 0 from rfl, Nat.zero_add] at whole

namespace Selector

theorem total_le_of_take {tokens rest : List Token} {found : Selector × Specificity}
    (read : take tokens = .ok (found, rest)) : found.2.total + rest.length ≤ tokens.length := by
  unfold take at read
  obtain ⟨⟨compound, behind⟩, first, read⟩ := Reading.bind_eq_ok.mp read
  obtain ⟨⟨links, last⟩, more, same⟩ := Reading.bind_eq_ok.mp read
  cases same
  have := (length_le_of_takeCompound first).1
  have := length_le_of_takeLinks more
  have counted := total_specificityOf_le (compound ++ links.flatMap Prod.snd)
  rw [List.length_append] at counted
  show (specificityOf (compound ++ links.flatMap Prod.snd)).total + rest.length ≤ tokens.length
  omega

/-- Each condition takes a token at least, so no specificity is larger than the list is long. -/
theorem total_le_of_takeList {tokens rest : List Token}
    {selectors : List (Selector × Specificity)} (read : takeList tokens = .ok (selectors, rest)) :
    ∀ selector ∈ selectors, selector.2.total ≤ tokens.length := by
  fun_induction takeList tokens generalizing selectors rest with
  | case1 => cases read
  | case2 => cases read
  | case3 tokens selector behind taken next more shape comma ih =>
    have first := total_le_of_take taken
    have gap := Token.length_skipSpace_le behind
    have inner := Token.length_skipSpace_le more
    rw [shape, List.length_cons] at gap
    obtain ⟨_, rested, same⟩ := Reading.map_eq_ok.mp read
    cases same
    refine List.forall_mem_cons.mpr ⟨by omega, fun selector mem => ?_⟩
    have := ih rested selector mem
    omega
  | case4 tokens selector behind taken next more shape =>
    have first := total_le_of_take taken
    cases read
    exact List.forall_mem_singleton.mpr (by omega)
  | case5 => cases read

end Selector

namespace Store

/-- The specificities of the rules stay within a limit. -/
def Within (limit : Nat) (store : Store) : Prop :=
  ∀ rule ∈ store.rules, rule.specificity.total ≤ limit

variable {limit : Nat} {store : Store}

/-- A block adds one rule for each selector, each of a specificity that stays within the bound. -/
theorem Within.addBlock (within : store.Within limit) (priority : Priority)
    (properties : PropertySet) {selectors : List (Selector × Specificity)}
    (kept : ∀ selector ∈ selectors, selector.2.total ≤ limit) :
    (store.addBlock priority properties selectors).Within limit := by
  have added (block : Nat) {start : Store} (within : start.Within limit) :
      (selectors.foldl (fun result selector =>
        result.addRule priority properties block selector) start).Within limit := by
    induction selectors generalizing start with
    | nil => exact within
    | cons first rest ih =>
      obtain ⟨one, more⟩ := List.forall_mem_cons.mp kept
      refine ih more fun rule mem => ?_
      obtain rfl | old := List.mem_cons.mp ((rules_insert_perm start _).mem_iff.mp mem)
      · exact one
      · exact within rule old
  unfold Store.addBlock
  split
  · exact within
  · refine added _ fun rule mem => ?_
    rw [rules_notePriority] at mem
    exact within rule mem

theorem Within.add (within : store.Within limit) (sheet : SheetId) {source : List UInt8}
    (short : source.length ≤ limit) : (store.add sheet source).Within limit := by
  have kept : ∀ statement ∈ (store.readText source).statements,
      statement.Selects fun selectors => ∀ selector ∈ selectors, selector.2.total ≤ limit :=
    Statement.selects_readAll
      (fun tokens _ _ few read selector mem =>
        Nat.le_trans (Selector.total_le_of_takeList read selector mem) few)
      (Nat.le_trans (length_tokensOf_le source) short)
  have added {statements : List Statement} {start : Store} (within : start.Within limit)
      (kept : ∀ statement ∈ statements,
        statement.Selects fun selectors => ∀ selector ∈ selectors, selector.2.total ≤ limit) :
      (statements.foldl (addStatement sheet) start).Within limit := by
    induction statements generalizing start with
    | nil => exact within
    | cons first rest ih =>
      obtain ⟨one, more⟩ := List.forall_mem_cons.mp kept
      refine ih ?_ more
      cases first with
      | ruleset selectors declarations => exact (within.addBlock _ _ one).addBlock _ _ one
      | link | skippedMedia | fault => exact within
  exact added within kept

/-- Counts and numbers are as small as what is added: no specificity counts more conditions than the
longest source has bytes, and the numbers of rules are those of all rules that sheets came to. -/
theorem run_counts (media : List String) (ops : List Op)
    (short : ∀ sheet source, Op.add sheet source ∈ ops → source.length ≤ limit) :
    let store := (Store.empty media).run ops
    (∀ rule ∈ store.rules, rule.specificity.total ≤ limit ∧ rule.sequence < store.nextSequence) ∧
      ∀ sheet source, (store.add sheet source).nextSequence =
        store.nextSequence + (store.readText source).counts.rules := by
  have ran {ops : List Op} {start : Store} (within : start.Within limit)
      (short : ∀ sheet source, Op.add sheet source ∈ ops → source.length ≤ limit) :
      (start.run ops).Within limit := by
    induction ops generalizing start with
    | nil => exact within
    | cons op rest ih =>
      refine ih ?_ fun sheet source mem => short sheet source (List.mem_cons_of_mem op mem)
      cases op with
      | add sheet source => exact within.add sheet (short sheet source List.mem_cons_self)
      | remove sheet =>
        intro rule mem
        rw [step, Ordered.rules_remove] at mem
        exact within rule (List.mem_filter.mp mem).1
  intro store
  have within : store.Within limit := ran (by simp [Within, Store.empty, rules]) short
  have older := ((WellFormed.empty media).run ops).older
  exact ⟨fun rule mem => ⟨within rule mem, older rule mem⟩,
    fun sheet source => (grows_add store sheet source).numbers⟩

end Store

end StyleCascade
