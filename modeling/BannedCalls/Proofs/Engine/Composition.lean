import BannedCalls.Engine
import BannedCalls.Proofs.FirstFailure
import Mathlib.Data.List.Basic
import Mathlib.Data.List.Induction

/-!
# Engines composed of visitors

An engine asks of a node only whether it is a call, and shows each call to its visitors in turn. So
the nodes may be of any form, and a visitor may go by the calls that it was shown before. Visitors
do not hear of each other: what some of them report is the same with others among them, and those
others only put their reports in between.
-/

namespace BannedCalls

/-- What a visitor has to say about a node, after the calls that it was shown before. Nothing at all
counts as an empty report. -/
abbrev Hook (ν α : Type) := List ν → ν → Option (List α)

/-- A visitor of nodes of any form that may remember. -/
structure Listener (ν α : Type) where
  name : Text
  onCall : Option (Hook ν α)

/-- A series of entries of two series, which are in order there. -/
inductive Interleaves {α : Type} : List α → List α → List α → Prop
  | nil : Interleaves [] [] []
  | left (x : α) {xs ys zs : List α} (h : Interleaves xs ys zs) :
      Interleaves (x :: xs) ys (x :: zs)
  | right (y : α) {xs ys zs : List α} (h : Interleaves xs ys zs) :
      Interleaves xs (y :: ys) (y :: zs)

namespace Interleaves

variable {α : Type} {xs ys zs xs' ys' zs' : List α}

theorem perm (h : Interleaves xs ys zs) : zs.Perm (xs ++ ys) := by
  induction h with
  | nil => exact .refl _
  | left x _ ih => exact ih.cons x
  | right y _ ih => exact (ih.cons y).trans List.perm_middle.symm

theorem append (h : Interleaves xs ys zs) (h' : Interleaves xs' ys' zs') :
    Interleaves (xs ++ xs') (ys ++ ys') (zs ++ zs') := by
  induction h with
  | nil => exact h'
  | left x _ ih => exact ih.left x
  | right y _ ih => exact ih.right y

theorem of_left (xs : List α) : Interleaves xs [] xs := by
  induction xs with
  | nil => exact .nil
  | cons x xs ih => exact ih.left x

theorem of_right (ys : List α) : Interleaves [] ys ys := by
  induction ys with
  | nil => exact .nil
  | cons y ys ih => exact ih.right y

theorem of_append (xs ys : List α) : Interleaves xs ys (xs ++ ys) := by
  simpa using (of_left xs).append (of_right ys)

end Interleaves

namespace Hook

variable {ν α : Type}

/-- Has nothing to say about any node. -/
def Silent (hook : Hook ν α) : Prop := ∀ seen n, hook seen n = none

/-- Goes by nothing but the node. -/
def Forgetful (hook : Hook ν α) : Prop := ∀ seen n, hook seen n = hook [] n

/-- The second series is the first with silent hooks put in, anywhere and any number of them. -/
inductive Padded : List (Hook ν α) → List (Hook ν α) → Prop
  | nil : Padded [] []
  | keep (hook : Hook ν α) {hooks wider : List (Hook ν α)} (h : Padded hooks wider) :
      Padded (hook :: hooks) (hook :: wider)
  | insert {hook : Hook ν α} (hs : hook.Silent) {hooks wider : List (Hook ν α)}
      (h : Padded hooks wider) : Padded hooks (hook :: wider)

/-- What some hooks report on a call, one after the other. -/
def reports (hooks : List (Hook ν α)) (seen : List ν) (call : ν) : List α :=
  hooks.flatMap fun hook => (hook seen call).getD []

/-- What some hooks report on the calls among some nodes, having been shown others before. -/
def run (isCall : ν → Bool) (hooks : List (Hook ν α)) : List ν → List ν → List α
  | _, [] => []
  | seen, n :: rest =>
    if isCall n then reports hooks seen n ++ run isCall hooks (seen ++ [n]) rest
    else run isCall hooks seen rest

variable {isCall : ν → Bool} {hooks : List (Hook ν α)}

theorem reports_cons (hook : Hook ν α) (hooks : List (Hook ν α)) (seen : List ν) (call : ν) :
    reports (hook :: hooks) seen call = (hook seen call).getD [] ++ reports hooks seen call :=
  List.flatMap_cons

theorem reports_append (hooks others : List (Hook ν α)) (seen : List ν) (call : ν) :
    reports (hooks ++ others) seen call = reports hooks seen call ++ reports others seen call :=
  List.flatMap_append

theorem run_cons_of_call {n : ν} (h : isCall n) (seen rest : List ν) :
    run isCall hooks seen (n :: rest) =
      reports hooks seen n ++ run isCall hooks (seen ++ [n]) rest := by
  rw [run, if_pos h]

theorem run_cons_of_not_call {n : ν} (h : ¬ isCall n) (seen rest : List ν) :
    run isCall hooks seen (n :: rest) = run isCall hooks seen rest := by
  rw [run, if_neg h]

/-! ## Nodes -/

theorem run_filter (seen nodes : List ν) :
    run isCall hooks seen nodes = run isCall hooks seen (nodes.filter isCall) := by
  induction nodes generalizing seen with
  | nil => rfl
  | cons n rest ih =>
    by_cases h : isCall n
    · rw [List.filter_cons_of_pos h, run_cons_of_call h, run_cons_of_call h, ih]
    · rw [List.filter_cons_of_neg h, run_cons_of_not_call h, ih]

theorem run_append (seen xs ys : List ν) :
    run isCall hooks seen (xs ++ ys) =
      run isCall hooks seen xs ++ run isCall hooks (seen ++ xs.filter isCall) ys := by
  induction xs generalizing seen with
  | nil => rw [List.filter_nil, List.append_nil]; rfl
  | cons n xs ih =>
    rw [List.cons_append]
    by_cases h : isCall n
    · rw [run_cons_of_call h, run_cons_of_call h, ih, List.filter_cons_of_pos h,
        List.append_assoc, List.append_assoc, List.singleton_append]
    · rw [run_cons_of_not_call h, run_cons_of_not_call h, ih, List.filter_cons_of_neg h]

/-- The calls one after the other, each with those before it, and for each the hooks in turn. -/
theorem run_eq_flatMap (seen nodes : List ν) :
    let calls := nodes.filter isCall
    run isCall hooks seen nodes =
      calls.zipIdx.flatMap fun call => reports hooks (seen ++ calls.take call.2) call.1 := by
  intro calls
  have hc : ∀ n ∈ calls, isCall n := fun n hn => (List.mem_filter.1 hn).2
  rw [run_filter]
  change run isCall hooks seen calls = _
  generalize calls = calls at hc
  -- The calls are taken off the end, since none of them shows in what is before it.
  induction calls using List.reverseRecOn with
  | nil => rfl
  | append_singleton calls n ih =>
    obtain ⟨hcalls, hn⟩ := List.forall_mem_append.1 hc
    have hn : isCall n := hn n List.mem_cons_self
    have hearlier : ∀ call ∈ calls.zipIdx,
        reports hooks (seen ++ (calls ++ [n]).take call.2) call.1 =
          reports hooks (seen ++ calls.take call.2) call.1 := by
      intro call hm
      have hlt : call.2 < calls.length := by
        simpa using (List.mem_zipIdx hm).2.1
      rw [List.take_append_of_le_length (Nat.le_of_lt hlt)]
    have hlast : run isCall hooks (seen ++ calls) [n] = reports hooks (seen ++ calls) n := by
      rw [run_cons_of_call hn, run, List.append_nil]
    rw [run_append, List.filter_eq_self.2 hcalls, ih hcalls, hlast, List.zipIdx_append,
      List.flatMap_append, List.flatMap_congr hearlier]
    simp

/-! ## Hooks -/

theorem reports_of_padded {wider : List (Hook ν α)} (h : Padded hooks wider) (seen : List ν)
    (call : ν) : reports wider seen call = reports hooks seen call := by
  induction h with
  | nil => rfl
  | keep hook _ ih => rw [reports_cons, reports_cons, ih]
  | insert hs _ ih =>
    rw [reports_cons, hs seen call, Option.getD_none, List.nil_append, ih]

theorem run_of_padded {wider : List (Hook ν α)} (h : Padded hooks wider) (seen nodes : List ν) :
    run isCall wider seen nodes = run isCall hooks seen nodes := by
  simp only [run_eq_flatMap, reports_of_padded h]

theorem reports_of_forgetful (h : ∀ hook ∈ hooks, hook.Forgetful) (seen : List ν) (call : ν) :
    reports hooks seen call = reports hooks [] call :=
  List.flatMap_congr fun hook hm => by rw [h hook hm seen call]

theorem run_of_forgetful (h : ∀ hook ∈ hooks, hook.Forgetful) (seen nodes : List ν) :
    run isCall hooks seen nodes = (nodes.filter isCall).flatMap (reports hooks []) := by
  induction nodes generalizing seen with
  | nil => rfl
  | cons n rest ih =>
    by_cases hn : isCall n
    · rw [run_cons_of_call hn, reports_of_forgetful h, ih, List.filter_cons_of_pos hn,
        List.flatMap_cons]
    · rw [run_cons_of_not_call hn, ih, List.filter_cons_of_neg hn]

/-- Hooks and others report together what each of the two series reports, in their orders. -/
theorem interleaves_run (hooks others : List (Hook ν α)) (seen nodes : List ν) :
    Interleaves (run isCall hooks seen nodes) (run isCall others seen nodes)
      (run isCall (hooks ++ others) seen nodes) := by
  induction nodes generalizing seen with
  | nil => exact .nil
  | cons n rest ih =>
    by_cases h : isCall n
    · rw [run_cons_of_call h, run_cons_of_call h, run_cons_of_call h, reports_append]
      exact (Interleaves.of_append _ _).append (ih _)
    · rw [run_cons_of_not_call h, run_cons_of_not_call h, run_cons_of_not_call h]
      exact ih seen

end Hook

/-! ## Engines -/

namespace Listener

variable {ν α : Type}

def hookOf (listener : Listener ν α) : Except MissingHook (Hook ν α) :=
  listener.onCall.elim (.error ⟨listener.name⟩) .ok

/-- The hooks of some visitors, unless one of them has none. -/
def hooks (listeners : List (Listener ν α)) : Except MissingHook (List (Hook ν α)) :=
  listeners.mapM hookOf

theorem hookOf_eq_ok_iff {listener : Listener ν α} {hook : Hook ν α} :
    listener.hookOf = .ok hook ↔ listener.onCall = some hook := by
  cases h : listener.onCall <;> simp [hookOf, h]

theorem hookOf_eq_error_iff {listener : Listener ν α} {e : MissingHook} :
    listener.hookOf = .error e ↔ listener.onCall = none ∧ e = ⟨listener.name⟩ := by
  cases h : listener.onCall <;> simp [hookOf, h, eq_comm]

theorem hooks_eq_ok_iff {listeners : List (Listener ν α)} {hooks : List (Hook ν α)} :
    Listener.hooks listeners = .ok hooks ↔ listeners.map onCall = hooks.map some := by
  rw [Listener.hooks, mapM_eq_ok_iff_forall₂, ← List.forall₂_eq_eq_eq, List.forall₂_map_left_iff,
    List.forall₂_map_right_iff]
  simp only [hookOf_eq_ok_iff]

/-- An engine is refused for the first of its visitors that has no hook. -/
theorem hooks_eq_error_iff {listeners : List (Listener ν α)} {e : MissingHook} :
    hooks listeners = .error e ↔ ∃ before listener after,
      listeners = before ++ listener :: after ∧ (∀ l ∈ before, l.onCall ≠ none) ∧
        listener.onCall = none ∧ e = ⟨listener.name⟩ := by
  simp only [hooks, mapM_eq_error_iff, hookOf_eq_error_iff, hookOf_eq_ok_iff,
    ← Option.ne_none_iff_exists']

theorem exists_hooks_eq_error_iff {listeners : List (Listener ν α)} :
    (∃ e, hooks listeners = .error e) ↔ ∃ l ∈ listeners, l.onCall = none := by
  constructor
  · rintro ⟨e, he⟩
    obtain ⟨before, l, after, rfl, -, hl, -⟩ := hooks_eq_error_iff.1 he
    exact ⟨l, List.mem_append_right _ List.mem_cons_self, hl⟩
  · rintro ⟨l, hm, hl⟩
    cases h : hooks listeners with
    | error e => exact ⟨e, rfl⟩
    | ok hooks =>
      have hs : l.onCall ∈ hooks.map some := hooks_eq_ok_iff.1 h ▸ List.mem_map_of_mem hm
      simp [hl] at hs

end Listener

/-- A visitor that goes by the cursor of a node alone. -/
def Visitor.listener {α : Type} (visitor : Visitor α) : Listener Node α :=
  ⟨visitor.name, visitor.onCall.map fun hook _ n => hook n.cursor⟩

namespace RuleEngine

variable {α : Type}

def listeningHooks (engine : RuleEngine α) : List (Hook Node α) :=
  engine.hooks.map fun hook _ n => hook n.cursor

theorem run_eq_run_listeningHooks (engine : RuleEngine α) (nodes : List Node) :
    engine.run nodes =
      Hook.run (fun n => n.info.kind = .callExpr) engine.listeningHooks [] nodes := by
  have hf : ∀ hook ∈ engine.listeningHooks, hook.Forgetful := by
    simp [listeningHooks, Hook.Forgetful]
  rw [Hook.run_of_forgetful hf, run]
  refine List.flatMap_congr fun n _ => ?_
  rw [reports, Hook.reports, listeningHooks, List.flatMap_map]

theorem hookOf_listener (visitor : Visitor α) :
    visitor.listener.hookOf = (hookOf visitor).map fun hook _ n => hook n.cursor := by
  unfold Listener.hookOf hookOf Visitor.listener
  cases visitor.onCall <;> rfl

/-- Building fails alike, and leads to the same hooks. -/
theorem map_ofVisitors (visitors : List (Visitor α)) :
    (ofVisitors visitors).map listeningHooks = Listener.hooks (visitors.map Visitor.listener) := by
  induction visitors with
  | nil => rfl
  | cons visitor rest ih =>
    rw [ofVisitors] at ih
    rw [ofVisitors, List.map_cons, Listener.hooks, List.mapM_cons, List.mapM_cons,
      hookOf_listener, ← Listener.hooks, ← ih]
    cases hookOf visitor with
    | error e => rfl
    | ok hook => cases rest.mapM hookOf <;> rfl

/-- An engine is refused for the first of its visitors without a hook, and built if there is none.
It shows the calls among the nodes, and no others, one after the other to its visitors in turn, and
strings together what they report. Visitors without reports change nothing, wherever they stand; of
more nodes the reports come behind; and visitors side by side report what each series of them does,
one between the other. The engines of visitors that go by a cursor alone are a case of this. -/
theorem run_composes {ν α : Type} (isCall : ν → Bool) :
    (∀ (visitors : List (Visitor α)) (nodes : List Node),
      (ofVisitors visitors).map (·.run nodes) =
        (Listener.hooks (visitors.map Visitor.listener)).map
          (Hook.run (fun n => n.info.kind = .callExpr) · [] nodes)) ∧
    (∀ listeners : List (Listener ν α),
      ((∃ e, Listener.hooks listeners = .error e) ↔ ∃ l ∈ listeners, l.onCall = none) ∧
      (∀ e, Listener.hooks listeners = .error e → ∃ before l after,
        listeners = before ++ l :: after ∧ (∀ u ∈ before, u.onCall ≠ none) ∧ l.onCall = none ∧
          e.message = l.name ++ " has no on_call_expression() hook") ∧
      ∀ hooks, Listener.hooks listeners = .ok hooks ↔
        listeners.map Listener.onCall = hooks.map some) ∧
    ∀ (hooks : List (Hook ν α)) (seen nodes : List ν),
      let calls := nodes.filter isCall
      let reports := Hook.run isCall hooks seen nodes
      reports = (calls.zipIdx.flatMap fun call => hooks.flatMap fun hook =>
        (hook (seen ++ calls.take call.2) call.1).getD []) ∧
      reports = Hook.run isCall hooks seen calls ∧
      (∀ wider, Hook.Padded hooks wider → Hook.run isCall wider seen nodes = reports) ∧
      (∀ more, Hook.run isCall hooks seen (nodes ++ more) =
        reports ++ Hook.run isCall hooks (seen ++ calls) more) ∧
      ((∀ hook ∈ hooks, hook.Forgetful) → reports = Hook.run isCall hooks [] nodes) ∧
      ∀ others, (Hook.run isCall (hooks ++ others) seen nodes).Perm
          (reports ++ Hook.run isCall others seen nodes) ∧
        Interleaves reports (Hook.run isCall others seen nodes)
          (Hook.run isCall (hooks ++ others) seen nodes) := by
  refine ⟨?_, fun listeners => ⟨?_, ?_, fun hooks => Listener.hooks_eq_ok_iff⟩, ?_⟩
  · intro visitors nodes
    rw [← map_ofVisitors]
    cases ofVisitors visitors with
    | error e => rfl
    | ok engine => exact congrArg Except.ok (engine.run_eq_run_listeningHooks nodes)
  · exact Listener.exists_hooks_eq_error_iff
  · intro e he
    obtain ⟨before, l, after, hl, hb, hn, rfl⟩ := Listener.hooks_eq_error_iff.1 he
    exact ⟨before, l, after, hl, hb, hn, rfl⟩
  · intro hooks seen nodes calls reports
    have hi (others : List (Hook ν α)) : Interleaves reports (Hook.run isCall others seen nodes)
        (Hook.run isCall (hooks ++ others) seen nodes) :=
      Hook.interleaves_run hooks others seen nodes
    refine ⟨Hook.run_eq_flatMap seen nodes, Hook.run_filter seen nodes,
      fun wider h => Hook.run_of_padded h seen nodes, fun more => Hook.run_append seen nodes more,
      fun h => ?_, fun others => ⟨(hi others).perm, hi others⟩⟩
    exact (Hook.run_of_forgetful h seen nodes).trans (Hook.run_of_forgetful h [] nodes).symm

/-- A visitor that counts the calls, one that has nothing to say about some of them, and one that
has nothing to say at all. Even numbers are calls. -/
theorem run_composes_counting :
    let isCall : Nat → Bool := fun n => n % 2 = 0
    let counting : Hook Nat Nat := fun seen n => some [seen.length, n]
    let picky : Hook Nat Nat := fun _ n => if n = 4 then none else some [10 * n]
    let silent : Hook Nat Nat := fun _ _ => none
    let run := Hook.run isCall
    (∃ e, Listener.hooks [⟨"Picky", some picky⟩, ⟨"Plain", (none : Option (Hook Nat Nat))⟩] =
      .error e) ∧
    run [silent, counting, silent, picky] [] ([2, 3] ++ [4, 6]) = [0, 2, 20, 1, 4, 2, 6, 60] ∧
    run [counting] [] ([2, 3] ++ [4, 6]) = run [counting] [] [2, 3] ++ run [counting] [2] [4, 6] ∧
    run [picky] [2] [4, 6] = run [picky] [] [4, 6] ∧
    Interleaves [0, 2, 1, 4, 2, 6] [20, 60] [0, 2, 20, 1, 4, 2, 6, 60] := by
  intro isCall counting picky silent run
  have hs : silent.Silent := fun _ _ => rfl
  have hp : Hook.Padded [counting, picky] [silent, counting, silent, picky] :=
    .insert hs (.keep counting (.insert hs (.keep picky .nil)))
  have hf : ∀ hook ∈ [picky], hook.Forgetful := by
    intro hook hm seen n
    rw [List.mem_singleton.1 hm]
  obtain ⟨-, hbuild, hrun⟩ := run_composes (α := Nat) isCall
  obtain ⟨-, -, hpadded, -, -, -⟩ := hrun [counting, picky] [] [2, 3, 4, 6]
  obtain ⟨-, -, -, hmore, -, -⟩ := hrun [counting] [] [2, 3]
  obtain ⟨-, -, -, -, hforget, -⟩ := hrun [picky] [2] [4, 6]
  obtain ⟨-, -, -, -, -, hbeside⟩ := hrun [counting] [] [2, 3, 4, 6]
  exact ⟨(hbuild _).1.2 ⟨_, List.mem_cons_of_mem _ List.mem_cons_self, rfl⟩,
    (hpadded _ hp).trans rfl, hmore [4, 6], hforget hf, (hbeside [picky]).2⟩

end RuleEngine

end BannedCalls
