import BannedCalls.Proofs.Ban.Offers
import Mathlib.Data.List.Induction

/-!
# Logs

A ban list is a log: a step on it starts it anew with other pairs, adds one pair at its end, or
changes nothing. What a series of steps leaves is made up of the pairs of the last start, followed
by those of the additions since, in their order and with repetitions. A step that fails, whatever
it fails on and however far it has come, is a step that changes nothing.
-/

namespace BannedCalls

namespace BanList

theorem ofJson_of_members {v : Json} {members : List Json} (hv : v.members? = some members) :
    ofJson v = (members.mapM fun w => (Offer.value w).pair).map BanList.mk := by
  rw [ofJson, hv]
  exact (ofOffers_eq _).trans (congrArg (Except.map BanList.mk) List.mapM_map)

/-! ## One step -/

namespace Step

/-- The step starts the list anew, with these pairs. -/
def Restarts (s : Step) (pairs : List BannedPair) : Prop :=
  ∃ v members, s = .replace v ∧ v.members? = some members ∧ List.Forall₂ Json.Names members pairs

/-- The step adds the pair. -/
def Adds (s : Step) (p : BannedPair) : Prop := ∃ v, s = .add v ∧ v.Names p

def Reads : Step → Prop
  | .replace _ | .add _ => False
  | .size | .entries | .texts | .contains _ => True

/-- The step fails: on a value that makes no pair, on the first such value of a new list, or on a
new list that has no members. -/
inductive Raises : Step → PairError → Prop
  | pair {v : Json} {e : PairError} (hv : v.Refused e) : Raises (.add v) e
  | member {v bad : Json} {before after : List Json} {e : PairError}
    (hv : v.members? = some (before ++ bad :: after)) (hb : ∀ w ∈ before, ∃ p, w.Names p)
    (he : bad.Refused e) : Raises (.replace v) e
  | scalar {v : Json} (hv : v.members? = none) : Raises (.replace v) (.notList v.typeName)

/-- The pair that the step adds, if it adds one. -/
def added? : Step → Option BannedPair
  | .add v => (Offer.value v).pair.toOption
  | _ => none

theorem added?_eq_some_iff {s : Step} {p : BannedPair} : s.added? = some p ↔ s.Adds p := by
  cases s with
  | add v =>
    have hp : (Offer.value v).pair.toOption = some p ↔ (Offer.value v).pair = .ok p := by
      cases (Offer.value v).pair <;> simp [Except.toOption]
    simp only [added?, Adds, hp, Json.pair_eq_ok_iff, add.injEq, exists_eq_left']
  | _ => simp [added?, Adds]

theorem restarts_or_raises (v : Json) :
    (∃ pairs, (Step.replace v).Restarts pairs) ∨ ∃ e, (Step.replace v).Raises e := by
  cases hv : v.members? with
  | none => exact Or.inr ⟨_, .scalar hv⟩
  | some members =>
    cases hp : members.mapM fun w => (Offer.value w).pair with
    | ok pairs => exact Or.inl ⟨pairs, v, members, rfl, hv, Json.mapM_pair_eq_ok_iff.1 hp⟩
    | error e =>
      obtain ⟨before, bad, after, rfl, hb, he⟩ := Json.mapM_pair_eq_error_iff.1 hp
      exact Or.inr ⟨e, .member hv hb he⟩

theorem adds_or_raises (v : Json) :
    (∃ p, (Step.add v).Adds p) ∨ ∃ e, (Step.add v).Raises e := by
  rcases v.names_or_refused with ⟨p, h⟩ | ⟨e, h⟩
  · exact Or.inl ⟨p, v, rfl, h⟩
  · exact Or.inr ⟨e, .pair h⟩

theorem outcome (s : Step) :
    (∃ pairs, s.Restarts pairs) ∨ (∃ p, s.Adds p) ∨ s.Reads ∨ ∃ e, s.Raises e := by
  cases s with
  | replace v => exact (restarts_or_raises v).imp_right fun h => Or.inr (Or.inr h)
  | add v => exact Or.inr ((adds_or_raises v).imp_right Or.inr)
  | size => exact Or.inr (Or.inr (Or.inl trivial))
  | entries => exact Or.inr (Or.inr (Or.inl trivial))
  | texts => exact Or.inr (Or.inr (Or.inl trivial))
  | contains v => exact Or.inr (Or.inr (Or.inl trivial))

/-- The step neither starts the list anew nor adds to it. -/
def Idle (s : Step) : Prop := (∀ pairs, ¬ s.Restarts pairs) ∧ ∀ p, ¬ s.Adds p

theorem Reads.idle {s : Step} (h : s.Reads) : s.Idle := by
  constructor
  · rintro pairs ⟨v, members, rfl, -⟩
    exact h
  · rintro p ⟨v, rfl, -⟩
    exact h

theorem Adds.not_restarts {s : Step} {p : BannedPair} (h : s.Adds p) (pairs : List BannedPair) :
    ¬ s.Restarts pairs := by
  obtain ⟨v, rfl, -⟩ := h
  rintro ⟨w, members, hw, -⟩
  cases hw

theorem added?_of_idle {s : Step} (h : s.Idle) : s.added? = none :=
  Option.eq_none_iff_forall_ne_some.2 fun p hp => h.2 p (added?_eq_some_iff.1 hp)

theorem Restarts.named {s : Step} {pairs : List BannedPair} (h : s.Restarts pairs) :
    ∀ p ∈ pairs, p.Named := by
  obtain ⟨v, members, -, -, hm⟩ := h
  induction hm with
  | nil => exact fun p hp => absurd hp List.not_mem_nil
  | cons hp _ ih => exact List.forall_mem_cons.2 ⟨hp.named, ih⟩

theorem Adds.named {s : Step} {p : BannedPair} (h : s.Adds p) : p.Named := by
  obtain ⟨v, -, hv⟩ := h
  exact hv.named

end Step

section

variable (list : BanList) {s : Step}

theorem step_of_restarts {pairs : List BannedPair} (h : s.Restarts pairs) :
    list.step s = (.ok (.entries pairs), ⟨pairs⟩) := by
  obtain ⟨v, members, rfl, hv, hm⟩ := h
  have hj : ofJson v = .ok ⟨pairs⟩ := by
    rw [ofJson_of_members hv, Json.mapM_pair_eq_ok_iff.2 hm]
    rfl
  rw [step, hj]

theorem step_of_adds {p : BannedPair} (h : s.Adds p) :
    list.step s = (.ok (.entries (list.entries ++ [p])), ⟨list.entries ++ [p]⟩) := by
  obtain ⟨v, rfl, hv⟩ := h
  have ha : list.add (.value v) = .ok ⟨list.entries ++ [p]⟩ := by
    rw [add, hv.pair_eq]
    rfl
  rw [step, ha]

theorem step_of_raises {e : PairError} (h : s.Raises e) : list.step s = (.error e, list) := by
  cases h with
  | @pair v _ hv =>
    have ha : list.add (.value v) = .error e := by
      rw [add, hv.pair_eq]
      rfl
    rw [step, ha]
  | @member v bad before after _ hv hb he =>
    have hj : ofJson v = .error e := by
      rw [ofJson_of_members hv, Json.mapM_pair_eq_error_iff.2 ⟨before, bad, after, rfl, hb, he⟩]
      rfl
    rw [step, hj]
  | @scalar v hv =>
    have hj : ofJson v = .error (.notList v.typeName) := by rw [ofJson, hv]
    rw [step, hj]

theorem step_of_reads (h : s.Reads) : ∃ reply, list.step s = (.ok reply, list) := by
  cases s with
  | replace v => exact h.elim
  | add v => exact h.elim
  | size => exact ⟨_, rfl⟩
  | entries => exact ⟨_, rfl⟩
  | texts => exact ⟨_, rfl⟩
  | contains v => exact ⟨_, rfl⟩

theorem idle_of_raises {e : PairError} (h : s.Raises e) : s.Idle := by
  have hstep := empty.step_of_raises h
  constructor
  · intro pairs hs
    exact absurd (hstep.symm.trans (empty.step_of_restarts hs)) nofun
  · intro p hs
    exact absurd (hstep.symm.trans (empty.step_of_adds hs)) nofun

/-- A step that succeeds does what it is for. -/
theorem outcome_of_ok {reply : Reply} (h : (list.step s).1 = .ok reply) :
    (∃ pairs, s.Restarts pairs) ∨ (∃ p, s.Adds p) ∨ s.Reads := by
  rcases s.outcome with hs | hs | hs | ⟨e, hs⟩
  · exact Or.inl hs
  · exact Or.inr (Or.inl hs)
  · exact Or.inr (Or.inr hs)
  · rw [list.step_of_raises hs] at h
    cases h

theorem step_eq_error_iff {e : PairError} : (list.step s).1 = .error e ↔ s.Raises e := by
  refine ⟨fun h => ?_, fun h => congrArg Prod.fst (list.step_of_raises h)⟩
  rcases s.outcome with ⟨pairs, hs⟩ | ⟨p, hs⟩ | hs | ⟨e', hs⟩
  · rw [list.step_of_restarts hs] at h
    cases h
  · rw [list.step_of_adds hs] at h
    cases h
  · obtain ⟨reply, hr⟩ := list.step_of_reads hs
    rw [hr] at h
    cases h
  · rw [list.step_of_raises hs] at h
    exact Except.error.inj h ▸ hs

theorem step_add_ok_iff {v : Json} :
    (∃ reply, (list.step (.add v)).1 = .ok reply) ↔ ∃ p, v.Names p := by
  constructor
  · rintro ⟨reply, h⟩
    rcases list.outcome_of_ok h with ⟨pairs, w, members, ⟨⟩, -⟩ | ⟨p, w, ⟨⟩, hp⟩ | hr
    · exact ⟨p, hp⟩
    · exact hr.elim
  · rintro ⟨p, h⟩
    exact ⟨_, congrArg Prod.fst (list.step_of_adds ⟨v, rfl, h⟩)⟩

theorem step_replace_ok_iff {v : Json} :
    (∃ reply, (list.step (.replace v)).1 = .ok reply) ↔
      ∃ pairs, (Step.replace v).Restarts pairs := by
  constructor
  · rintro ⟨reply, h⟩
    rcases list.outcome_of_ok h with hs | ⟨p, w, ⟨⟩, -⟩ | hr
    · exact hs
    · exact hr.elim
  · rintro ⟨pairs, h⟩
    exact ⟨_, congrArg Prod.fst (list.step_of_restarts h)⟩

end

/-! ## Any number of steps -/

/-- The list that some steps leave. -/
def after (list : BanList) (steps : List Step) : BanList :=
  steps.foldl (fun list s => (list.step s).2) list

theorem after_concat (list : BanList) (steps : List Step) (s : Step) :
    list.after (steps ++ [s]) = ((list.after steps).step s).2 := List.foldl_concat ..

theorem getElem?_run (list : BanList) (before : List Step) (s : Step) (rest : List Step) :
    (list.run (before ++ s :: rest))[before.length]? = some ((list.after before).step s) := by
  induction before generalizing list with
  | nil => rfl
  | cons t before ih => exact ih (list.step t).2

/-- The list holds what the steps log: the pairs of the last of them to start a list, if one does,
and then those that the steps since have added. -/
def Logs (list : BanList) (steps : List Step) : Prop :=
  ∃ start since, list.entries = start ++ since.filterMap Step.added? ∧
    (∀ s ∈ since, ∀ pairs, ¬ s.Restarts pairs) ∧
    (start = [] ∧ steps = since ∨
      ∃ earlier s, steps = earlier ++ s :: since ∧ s.Restarts start)

theorem Logs.concat {list next : BanList} {steps : List Step} (h : list.Logs steps) {s : Step}
    (hs : ∀ pairs, ¬ s.Restarts pairs) (he : next.entries = list.entries ++ s.added?.toList) :
    next.Logs (steps ++ [s]) := by
  obtain ⟨start, since, hl, hn, hsteps⟩ := h
  refine ⟨start, since ++ [s], ?_, ?_, ?_⟩
  · rw [he, hl, List.filterMap_append, List.append_assoc]
    cases hp : s.added? <;> simp [hp]
  · intro t ht
    rcases List.mem_append.1 ht with ht | ht
    · exact hn t ht
    · exact List.mem_singleton.1 ht ▸ hs
  · rcases hsteps with ⟨hstart, rfl⟩ | ⟨earlier, t, rfl, ht⟩
    · exact Or.inl ⟨hstart, rfl⟩
    · exact Or.inr ⟨earlier, t, by simp, ht⟩

theorem Logs.concat_of_idle {list : BanList} {steps : List Step} (h : list.Logs steps) {s : Step}
    (hs : s.Idle) : list.Logs (steps ++ [s]) :=
  h.concat hs.1 (by simp [Step.added?_of_idle hs])

theorem Logs.step {list : BanList} {steps : List Step} (h : list.Logs steps) (s : Step) :
    (list.step s).2.Logs (steps ++ [s]) := by
  rcases s.outcome with ⟨pairs, hs⟩ | ⟨p, hs⟩ | hs | ⟨e, hs⟩
  · -- All that was logged before is past.
    rw [list.step_of_restarts hs]
    exact ⟨pairs, [], by simp, by simp, Or.inr ⟨steps, s, rfl, hs⟩⟩
  · rw [list.step_of_adds hs]
    exact h.concat hs.not_restarts (by simp [Step.added?_eq_some_iff.2 hs])
  · obtain ⟨reply, hr⟩ := list.step_of_reads hs
    rw [hr]
    exact h.concat_of_idle hs.idle
  · rw [list.step_of_raises hs]
    exact h.concat_of_idle (idle_of_raises hs)

theorem logs_after (steps : List Step) : (empty.after steps).Logs steps := by
  -- The log grows at its end, so the last step is the one that is taken off.
  induction steps using List.reverseRecOn with
  | nil => exact ⟨[], [], rfl, by simp, Or.inl ⟨rfl, rfl⟩⟩
  | append_singleton steps s ih =>
    rw [after_concat]
    exact ih.step s

theorem Logs.named {list : BanList} {steps : List Step} (h : list.Logs steps) :
    ∀ p ∈ list.entries, p.Named := by
  obtain ⟨start, since, hl, -, hsteps⟩ := h
  intro p hp
  rcases List.mem_append.1 (hl ▸ hp) with hp | hp
  · rcases hsteps with ⟨rfl, -⟩ | ⟨earlier, s, -, hs⟩
    · cases hp
    · exact hs.named p hp
  · obtain ⟨s, -, hs⟩ := List.mem_filterMap.1 hp
    exact (Step.added?_eq_some_iff.1 hs).named

/-- After each step of a run that starts with an empty list, the list holds what the steps so far
log, and all of it is pairs of names. A step fails exactly on what is no pair, or no list of pairs,
and leaves the list as it was, as does a step that reads. -/
theorem run_log (before : List Step) (s : Step) (rest : List Step) :
    let list := empty.after before
    let next := empty.after (before ++ [s])
    ∃ reply, (run empty (before ++ s :: rest))[before.length]? = some (reply, next) ∧
      next.Logs (before ++ [s]) ∧ (∀ p ∈ next.entries, p.Named) ∧
      (∀ e, reply = .error e ↔ s.Raises e) ∧
      (∀ e, s.Raises e → next = list) ∧
      (s.Reads → (∃ r, reply = .ok r) ∧ next = list) ∧
      (∀ v, s = .add v → ((∃ r, reply = .ok r) ↔ ∃ p, v.Names p)) ∧
      ∀ v, s = .replace v → ((∃ r, reply = .ok r) ↔ ∃ pairs, s.Restarts pairs) := by
  intro list next
  have hnext : next = (list.step s).2 := empty.after_concat before s
  have hlogs : next.Logs (before ++ [s]) := logs_after (before ++ [s])
  refine ⟨(list.step s).1, ?_, hlogs, hlogs.named, fun e => list.step_eq_error_iff, ?_, ?_, ?_, ?_⟩
  · rw [hnext]
    exact empty.getElem?_run before s rest
  · intro e he
    rw [hnext, list.step_of_raises he]
  · intro hs
    obtain ⟨reply, hr⟩ := list.step_of_reads hs
    rw [hnext, hr]
    exact ⟨⟨reply, rfl⟩, rfl⟩
  · rintro v rfl
    exact list.step_add_ok_iff
  · rintro v rfl
    exact list.step_replace_ok_iff

/-- A list started from an object takes the names in another, and a new list is refused for the
third of its values. -/
theorem run_log_mixed :
    let start : Json := .obj [("cd", .null), ("ef", .bool true)]
    let bad : Json := .arr [.str "k", .str ""]
    let broken : Json := .arr [.str "gh", .arr [.str "i", .str "j"], bad, .str "lm"]
    let before : List Step := [.add (.str "ab"), .replace start, .add (.arr [.str "a"]),
      .add (.obj [("x", .null), ("y", .null)]), .texts, .replace .null]
    let list : BanList := ⟨[⟨"c", "d"⟩, ⟨"e", "f"⟩, ⟨"x", "y"⟩]⟩
    (run empty (before ++ [.replace broken, .size]))[6]? =
        some (.error (.badName (.value bad)), list) ∧
      list.Logs (before ++ [.replace broken]) ∧ ∀ p ∈ list.entries, p.Named := by
  intro start bad broken before list
  have hbefore : empty.after before = list := by rfl
  have hraises : (Step.replace broken).Raises (.badName (.value bad)) := by
    have hmembers : broken.members? =
        some ([.str "gh", .arr [.str "i", .str "j"]] ++ bad :: [.str "lm"]) := rfl
    refine .member hmembers ?_ (.badName rfl ?_)
    · exact List.forall_mem_cons.2 ⟨⟨_, .text _ _⟩,
        List.forall_mem_singleton.2 ⟨_, .list (by decide) (by decide)⟩⟩
    · rintro ⟨-, t, ht, ⟨⟩⟩
      exact ht rfl
  obtain ⟨reply, hrun, hlogs, hnamed, herror, hkept, -⟩ :=
    run_log before (.replace broken) [.size]
  have hnext : empty.after (before ++ [.replace broken]) = list := (hkept _ hraises).trans hbefore
  rw [hnext] at hrun hlogs hnamed
  rw [(herror _).2 hraises] at hrun
  exact ⟨hrun, hlogs, hnamed⟩

end BanList

end BannedCalls
