import MapAlgebra.Proofs.Graph.Paired
import MapAlgebra.Proofs.Graph.Recurrence
import Mathlib.Data.Nat.Find

namespace MapAlgebra.Graph

-- Every step that feeds a carried value has a tail, which belongs to that value or to an earlier
-- one.
theorem LoopPlan.exists_tail (plan : LoopPlan) {index : Nat} {value : CarriedValue}
    (hvalue : plan.carried[index]? = some value) :
    ∃ first ≤ index, (first, value.feed) ∈ plan.tails := by
  classical
  have hsome : ∃ first, ∃ other : CarriedValue, plan.carried[first]? = some other ∧
      other.feed = value.feed := ⟨index, value, hvalue, rfl⟩
  obtain ⟨other, hother, hfeed⟩ := Nat.find_spec hsome
  refine ⟨Nat.find hsome, Nat.find_min' hsome ⟨value, hvalue, rfl⟩, ?_⟩
  refine (plan.mem_tails _ _).mpr ⟨other, hother, hfeed, fun earlier hearlier found hfound hsame => ?_⟩
  exact Nat.find_min hsome hearlier ⟨found, hfound, hsame⟩

namespace State

variable {state : State} {plan : LoopPlan}

-- After a round, carried values that one step feeds are the same.
theorem nextValues_eq_of_feed {carried next : List Grid}
    (hnext : state.nextValues plan carried = .ok next) {i j : Nat} {a b : CarriedValue}
    (ha : plan.carried[i]? = some a) (hb : plan.carried[j]? = some b) (hfeed : a.feed = b.feed) :
    next[i]? = next[j]? := by
  obtain ⟨steps, _, hnext⟩ := bind_eq_ok.mp hnext
  obtain ⟨x, hx, hentryA⟩ := exists_related (mapM_eq_ok.mp hnext) ha
  obtain ⟨y, hy, hentryB⟩ := exists_related (mapM_eq_ok.mp hnext) hb
  rw [hfeed, hentryB] at hentryA
  rw [hx, hy, Except.ok.inj hentryA]

end State

open State in
-- A tail stands for all carried values that its step feeds. Once a round was run, it has the final
-- value of each of them. When no round is run, it has the initial value of the first one.
theorem tails_shared_by_feeds {state after : State} (h : Reachable state) {loop : Address}
    (hassemble : simulator.loopAssemble state = (.ok loop, after)) :
    ∃ plan pairs, state.recorder.plan state.nodes = .ok plan ∧ after.pairsOf loop = .ok pairs ∧
      ∀ k value, plan.carried[k]? = some value →
        ∃ before tail first, (before, tail) ∈ pairs.before.zip pairs.after ∧
          state.recorder.second[value.feed]? = some before ∧
          first ≤ k ∧ (first, value.feed) ∈ plan.tails ∧
          ∀ (values : Nat → List Grid) (n : Nat), after.initialValues plan = .ok (values 0) →
            n ≤ after.limit →
            (∀ i ≤ n - 1, after.nextValues plan (values i) = .ok (values (i + 1))) →
            (∀ i < n, goesOn (values i) = true) → goesOn (values n) = false →
              ∃ grid, after.grid tail = .ok grid ∧
                (values n)[if n = 0 then first else k]? = some grid := by
  have hafter : Reachable after := by
    have hcall := h.call .loopAssemble nofun
    rwa [Call.after, hassemble] at hcall
  have hlooped := hafter.looped
  obtain ⟨plan, hplan, hplaced⟩ := assemble_eq_ok h.consistent.counted.numbered hassemble
  obtain ⟨node, hnode, hkind⟩ := hplaced.node
  obtain ⟨pairs, hpairs, hrelated, _⟩ := hplaced.pairs
  have hfits := hlooped.fits hnode hkind
  refine ⟨plan, _, hplan, hpairs, fun k value hvalue => ?_⟩
  obtain ⟨first, hfirst, htail⟩ := plan.exists_tail hvalue
  obtain ⟨⟨before, tail⟩, hpair, hbefore, info, hinfo, hindex, hinputs⟩ :=
    related_of_mem hrelated htail
  refine ⟨before, tail, first, ?_, hbefore, hfirst, htail, ?_⟩
  · exact List.zip_of_prod rfl rfl ▸ hpair
  · intro values n hinitial hlimit hnext hgoes hends
    have haround := externals_evaluate hfits hinitial (hnext 0 (Nat.zero_le _))
    obtain ⟨hfinal, hlength⟩ := finalValues_eq_last hlooped hfits loop hinitial haround hlimit
      (fun i hi => hnext i (by omega)) hgoes hends
    obtain ⟨other, hother, hfeed, _⟩ := (plan.mem_tails _ _).mp htail
    have hlt : first < (values n).length := by
      rw [hlength]
      exact (List.getElem?_eq_some_iff.mp hother).1
    have hget := List.getElem?_eq_getElem hlt
    refine ⟨(values n)[first], ?_, ?_⟩
    · have hgrid := (grids_of_finalValues hlooped hnode hkind hfinal).2 tail info first hinfo hindex
        hinputs
      exact hgrid.trans (entry_eq_ok.mpr hget)
    · cases n with
      | zero => exact hget
      | succ n =>
          rw [if_neg (Nat.succ_ne_zero n), ← hget]
          exact nextValues_eq_of_feed (hnext n (Nat.le_refl n)) hvalue hother hfeed.symm

-- A guard that every round negates, and two values that every round replaces by their sum.
def summing (guard : Bool) : State :=
  (State.empty 5 none).afterCalls
    [.construct (.constant (.bool guard) (.single .b8)), .acquire 1,
      .construct (.constant (.s32 5) (.single .s32)), .acquire 2,
      .construct (.constant (.s32 7) (.single .s32)), .acquire 3, .loopStart, .loopCondition 1,
      .loopReplay .first, .construct (.unary 1 .not), .acquire 4, .construct (.binary 2 3 .add),
      .acquire 5, .loopCondition 4, .loopReplay .second, .construct (.unary 4 .not),
      .construct (.binary 5 5 .add)]

def summed (guard : Bool) : State := (simulator.loopAssemble (summing guard)).2

-- Both summands are carried, and the same step feeds them.
def summingPlan : LoopPlan :=
  ⟨[4, 5], [[.carried 0], [.carried 1, .carried 2]], [⟨1, 0⟩, ⟨2, 1⟩, ⟨3, 1⟩]⟩

theorem summing_reachable (guard : Bool) : Reachable (summing guard) :=
  (Reachable.empty 5 none).calls _ (by cases guard <;> decide)

-- After one round, the tail of the sum has the final value of the second summand.
theorem sum_in_shared_tail :
    Reachable (summing true) ∧ simulator.loopAssemble (summing true) = (.ok 8, summed true) ∧
      ∃ initial next grid, (summed true).initialValues summingPlan = .ok initial ∧
        (summed true).nextValues summingPlan initial = .ok next ∧
        goesOn initial = true ∧ goesOn next = false ∧
        next[2]? = some grid ∧ (summed true).grid 10 = .ok grid := by
  have hassemble : simulator.loopAssemble (summing true) = (.ok 8, summed true) := rfl
  have hruns : (match (summed true).initialValues summingPlan with
      | .error _ => false
      | .ok initial =>
          match (summed true).nextValues summingPlan initial with
          | .error _ => false
          | .ok next => goesOn initial && !goesOn next) = true := by decide +kernel
  cases hinitial : (summed true).initialValues summingPlan with
  | error problem => simp [hinitial] at hruns
  | ok initial =>
      cases hnext : (summed true).nextValues summingPlan initial with
      | error problem => simp [hinitial, hnext] at hruns
      | ok next =>
          simp only [hinitial, hnext, Bool.and_eq_true, Bool.not_eq_true'] at hruns
          obtain ⟨plan, pairs, hplan, hpairs, htails⟩ :=
            tails_shared_by_feeds (summing_reachable true) hassemble
          obtain rfl : summingPlan = plan := Except.ok.inj hplan
          obtain rfl : (⟨[6, 7], [9, 10]⟩ : Pairs) = pairs := Except.ok.inj hpairs
          obtain ⟨before, tail, first, hpair, hbefore, _, _, hvalues⟩ := htails 2 ⟨3, 1⟩ rfl
          obtain rfl : 7 = before := Option.some.inj hbefore
          obtain rfl : tail = 10 := by simpa using hpair
          let values : Nat → List Grid := fun round => if round = 0 then initial else next
          have hrounds : ∀ i ≤ 1 - 1,
              (summed true).nextValues summingPlan (values i) = .ok (values (i + 1)) := by
            intro i hi
            obtain rfl : i = 0 := by omega
            exact hnext
          have hgoes : ∀ i < 1, goesOn (values i) = true := by
            intro i hi
            obtain rfl : i = 0 := by omega
            exact hruns.1
          obtain ⟨grid, hgrid, hvalue⟩ :=
            hvalues values 1 hinitial (by decide) hrounds hgoes hruns.2
          exact ⟨summing_reachable true, hassemble, initial, next, grid, rfl, hnext, hruns.1,
            hruns.2, hvalue, hgrid⟩

-- When no round is run, the second summand is lost: the tail of the sum has the first one.
theorem summand_lost_without_rounds :
    Reachable (summing false) ∧ simulator.loopAssemble (summing false) = (.ok 8, summed false) ∧
      (summing false).recorder.plan (summing false).nodes = .ok summingPlan ∧
      (summing false).recorder.second[1]? = some 7 ∧
      (summed false).pairsOf 8 = .ok ⟨[6, 7], [9, 10]⟩ ∧
      ∃ initial five seven, (summed false).initialValues summingPlan = .ok initial ∧
        goesOn initial = false ∧ initial[2]? = some seven ∧ (summed false).grid 10 = .ok five ∧
        five.same seven = false := by
  refine ⟨summing_reachable false, rfl, rfl, rfl, rfl, ?_⟩
  have hdiffers : (((summed false).initialValues summingPlan).toOption.any fun initial =>
      !goesOn initial && ((summed false).grid 10).toOption.any fun five =>
        initial[2]?.any fun seven => !five.same seven) = true := by decide +kernel
  obtain ⟨initial, hinitial, hdiffers⟩ := (Option.any_eq_true _ _).mp hdiffers
  rw [Bool.and_eq_true, Bool.not_eq_true'] at hdiffers
  obtain ⟨five, hfive, hdiffer⟩ := (Option.any_eq_true _ _).mp hdiffers.2
  obtain ⟨seven, hseven, hdiffer⟩ := (Option.any_eq_true _ _).mp hdiffer
  exact ⟨initial, five, seven, toOption_eq_some.mp hinitial, hdiffers.1, hseven,
    toOption_eq_some.mp hfive, (Bool.not_eq_true' _).mp hdiffer⟩

end MapAlgebra.Graph
