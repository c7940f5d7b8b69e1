import HpGuardian.Framework.Selection
import HpGuardian.Policy.Engine
import Mathlib.Data.Prod.Lex

/-!
# What resolution decides

The documented resolution ranks the matching rules lexicographically by the number of target fields
and by the action priority `require_approval`, `throttle`, `redirect`, `allow`, `log`; the first of
the highest rules is selected unless a deny matches, in which case the answer is deny, and if
nothing matches, it is the default action.

`ResolvesTo` states this for a list of matching rules, without a loop: the selected rule splits the
list so that every rule before it is strictly below it and every rule after it is at most as high.
A list splits in one way at most (`SelectedFrom.unique`), so the specification determines the
answer.  `resolveCallWithSelectedRuleAt_resolvesTo` shows that the selection loop decides it.

`resolveCallAt_perm` is about the order of the rules.  Which rule is selected depends on it, among
rules of equal rank; the action does not, since rules of equal rank have the same action.  With
rate limits that is no longer enough, because one of two such rules may be limited and the other
not.
-/

namespace HpGuardian

open Framework

/-! ## The documented order

The rank of a rule, and the comparison of the loop as a comparison of ranks. -/

/-- The actions that a selected rule can have, by ascending priority. -/
def ascendingPriority : List Action := [.log, .allow, .redirect, .throttle, .requireApproval]

/-- The number of target fields first, then the place of the action among the priorities. -/
def Rule.rank (rule : Rule) : ℕ ×ₗ ℕ :=
  toLex (rule.target.keys.card, ascendingPriority.idxOf rule.action)

theorem actionPriority_lt_iff (a b : Action) :
    actionPriority a < actionPriority b ↔
      ascendingPriority.idxOf a < ascendingPriority.idxOf b := by
  cases a <;> cases b <;> decide

/-- The comparison of the selection loop is the documented order. -/
theorem outranks_iff (candidate best : Rule) :
    Outranks candidate best ↔ best.rank < candidate.rank := by
  rw [Outranks, actionPriority_lt_iff, Rule.rank, Rule.rank, Prod.Lex.toLex_lt_toLex,
    eq_comm (a := ruleSpecificity candidate)]
  exact Iff.rfl

theorem ascendingPriority_inj (a b : Action)
    (h : ascendingPriority.idxOf a = ascendingPriority.idxOf b) : a = b := by
  revert h
  cases a <;> cases b <;> decide

/-- Rules of equal rank have the same action. -/
theorem action_eq_of_rank_eq {rule rule' : Rule} (h : rule.rank = rule'.rank) :
    rule.action = rule'.action :=
  ascendingPriority_inj _ _ (Prod.ext_iff.1 (toLex.injective h)).2

/-- The selection loop ends at the first of the highest rules. -/
theorem selectBest_mem_argmax (first : Rule) (others : List Rule) :
    selectBest first others ∈ (first :: others).argmax Rule.rank := by
  have hloop : selectBest first others =
      others.foldl (fun best rule => if best.rank < rule.rank then rule else best) first := by
    simp only [selectBest, outranks_iff]
  rw [hloop]
  exact foldl_mem_argmax Rule.rank first others

/-! ## The specification of resolution

The answer for a list of matching rules, and the loop against it. -/

/-- The matching rules split around the one that is selected: every rule before it is strictly
below it, and every rule after it is at most as high. -/
structure SelectedFrom (matching before : List Rule) (rule : Rule) (after : List Rule) : Prop where
  split : matching = before ++ rule :: after
  first : FirstLargest Rule.rank before rule after

/-- What is answered for a list of matching rules. With none of them the default action stands,
with a deny among them the answer is to deny, and otherwise exactly one of them is the selected
one.

It is the specification of the engine, written without its loops. -/
structure ResolvesTo (defaultAction : Action) (matching : List Rule) (decision : Decision)
    (selectedRule : Option ℕ) : Prop where
  matchedRules : decision.matchedRules = matching.map Rule.ruleIndex
  noMatch : matching = [] → decision.action = defaultAction ∧ selectedRule = none
  deny : (∃ rule ∈ matching, rule.action = .deny) →
    decision.action = .deny ∧ selectedRule = none
  selected : matching ≠ [] → (∀ rule ∈ matching, rule.action ≠ .deny) →
    ∃ before rule after, SelectedFrom matching before rule after ∧
      (∀ before' rule' after', SelectedFrom matching before' rule' after' →
        before' = before ∧ rule' = rule ∧ after' = after) ∧
      decision.action = rule.action ∧ selectedRule = some rule.ruleIndex

/-- A list of rules is split in at most one way. -/
theorem SelectedFrom.unique {matching before before' after after' : List Rule} {rule rule' : Rule}
    (h : SelectedFrom matching before rule after)
    (h' : SelectedFrom matching before' rule' after') :
    before' = before ∧ rule' = rule ∧ after' = after :=
  h'.first.unique h.first (h'.split.symm.trans h.split)

theorem selectedFrom_selectBest (first : Rule) (others : List Rule) :
    ∃ before after, SelectedFrom (first :: others) before (selectBest first others) after := by
  obtain ⟨before, after, hsplit, hfirst⟩ :=
    exists_firstLargest_of_mem_argmax (selectBest_mem_argmax first others)
  exact ⟨before, after, hsplit, hfirst⟩

section

variable (engine : Engine) (call : PolicyCall) (now : Instant)

/-- The engine's answer for the rules that match. -/
theorem resolvesTo_matching :
    ResolvesTo engine.defaultAction (engine.matching call now)
      (engine.resolveCallWithSelectedRuleAt call now).1
      (engine.resolveCallWithSelectedRuleAt call now).2 := by
  unfold Engine.resolveCallWithSelectedRuleAt
  cases engine.matching call now with
  | nil => exact ⟨rfl, fun _ => ⟨rfl, rfl⟩, by simp, fun h => absurd rfl h⟩
  | cons first others =>
      dsimp only
      by_cases hdeny : ∃ rule ∈ first :: others, rule.action = .deny
      · rw [if_pos (by simpa [List.any_eq_true] using hdeny)]
        refine ⟨rfl, by simp, fun _ => ⟨rfl, rfl⟩, fun _ hnone => ?_⟩
        obtain ⟨rule, hrule, haction⟩ := hdeny
        exact absurd haction (hnone rule hrule)
      · rw [if_neg (by simpa [List.any_eq_true] using hdeny)]
        refine ⟨rfl, by simp, fun h => absurd h hdeny, fun _ _ => ?_⟩
        obtain ⟨before, after, hselected⟩ := selectedFrom_selectBest first others
        exact ⟨before, _, after, hselected, fun _ _ _ h' => hselected.unique h', rfl, rfl⟩

/-- **Resolution meets its specification.** For every engine, call and instant the answer is the
documented one for the rules whose target and condition match, in declaration order. The engine
finds it in one pass over the matching rules; the specification only says which rule it must be. -/
theorem resolveCallWithSelectedRuleAt_resolvesTo :
    ResolvesTo engine.defaultAction
      (engine.rules.filter (fun rule => ruleMatchesRule rule call && evaluateAt rule call now))
      (engine.resolveCallWithSelectedRuleAt call now).1
      (engine.resolveCallWithSelectedRuleAt call now).2 := by
  rw [← Engine.matching]
  exact resolvesTo_matching engine call now

/-- Without rate limits the answer of the pure engine is the one of the resolution. -/
theorem resolveCallAt_of_noLimits (hlimits : engine.rateLimits = ∅) :
    engine.resolveCallAt call now = (engine.resolveCallWithSelectedRuleAt call now).1 := by
  have hselected : ∀ selectedRule : Option ℕ,
      selectedRule.any (fun index => decide (index ∈ engine.rateLimits)) = false := by
    intro selectedRule
    cases selectedRule with
    | none => rfl
    | some index => simp [hlimits, Finmap.notMem_empty]
  unfold Engine.resolveCallAt
  dsimp only
  rw [hselected, Bool.false_and, if_neg Bool.false_ne_true]

end

/-! ## The order of the rules

Permuting the rules permutes those that match. -/

/-- For two orders of the same matching rules the answers have the same action. -/
theorem ResolvesTo.action_eq_of_perm {defaultAction : Action} {matching matching' : List Rule}
    {decision decision' : Decision} {selectedRule selectedRule' : Option ℕ}
    (hperm : matching.Perm matching') (h : ResolvesTo defaultAction matching decision selectedRule)
    (h' : ResolvesTo defaultAction matching' decision' selectedRule') :
    decision.action = decision'.action := by
  by_cases hempty : matching = []
  · have hempty' : matching' = [] := by
      rw [hempty] at hperm
      exact hperm.nil_eq.symm
    rw [(h.noMatch hempty).1, (h'.noMatch hempty').1]
  by_cases hdeny : ∃ rule ∈ matching, rule.action = .deny
  · have hdeny' : ∃ rule ∈ matching', rule.action = .deny := by
      simpa only [hperm.mem_iff] using hdeny
    rw [(h.deny hdeny).1, (h'.deny hdeny').1]
  · have hnone : ∀ rule ∈ matching, rule.action ≠ .deny := fun rule hrule haction =>
      hdeny ⟨rule, hrule, haction⟩
    have hempty' : matching' ≠ [] := fun hnil => hempty (by rw [hnil] at hperm; exact hperm.eq_nil)
    obtain ⟨before, rule, after, hselected, -, haction, -⟩ := h.selected hempty hnone
    obtain ⟨before', rule', after', hselected', -, haction', -⟩ :=
      h'.selected hempty' (fun rule hrule => hnone rule (hperm.mem_iff.2 hrule))
    -- the two selected rules are as high as each other, so their actions are the same
    have hrank : rule.rank = rule'.rank := by
      refine hselected.first.key_eq_of_perm hselected'.first ?_
      rw [← hselected.split, ← hselected'.split]
      exact hperm
    rw [haction, haction', action_eq_of_rank_eq hrank]

/-- **Declaration order.** Without rate limits, two orders of the same rules decide every call
alike: the action is the same, and the matched rules are the same up to their order. The rule that
decides may be another one, of the same specificity and action. -/
theorem resolveCallAt_perm (engine : Engine) (hlimits : engine.rateLimits = ∅) {rules : List Rule}
    (hperm : rules.Perm engine.rules) (call : PolicyCall) (now : Instant) :
    (Engine.resolveCallAt { engine with rules := rules } call now).action =
        (engine.resolveCallAt call now).action ∧
      (Engine.resolveCallAt { engine with rules := rules } call now).matchedRules.Perm
        (engine.resolveCallAt call now).matchedRules := by
  have hmatching := hperm.filter (fun rule => ruleMatchesRule rule call && evaluateAt rule call now)
  constructor
  · rw [resolveCallAt_of_noLimits engine call now hlimits,
      resolveCallAt_of_noLimits { engine with rules := rules } call now hlimits]
    exact ResolvesTo.action_eq_of_perm hmatching
      (resolvesTo_matching { engine with rules := rules } call now)
      (resolvesTo_matching engine call now)
  · rw [Engine.matchedRules_eq, Engine.matchedRules_eq]
    exact hmatching.map Rule.ruleIndex

/-- Two rules that match every call, in both orders. -/
theorem resolveCallAt_perm_sample :
    let engine : Engine := ⟨[⟨.allow, ∅, .default, 0⟩, ⟨.redirect, ∅, .default, 1⟩], ∅, 1, .log⟩
    let reversed : Engine := { engine with rules := engine.rules.reverse }
    let call : PolicyCall := ⟨none, none, ["ls"], none, ∅⟩
    (reversed.resolveCallAt call 0).action = (engine.resolveCallAt call 0).action ∧
      (reversed.resolveCallAt call 0).matchedRules.Perm
        (engine.resolveCallAt call 0).matchedRules :=
  resolveCallAt_perm ⟨[⟨.allow, ∅, .default, 0⟩, ⟨.redirect, ∅, .default, 1⟩], ∅, 1, .log⟩ rfl
    (List.reverse_perm _) ⟨none, none, ["ls"], none, ∅⟩ 0

end HpGuardian
