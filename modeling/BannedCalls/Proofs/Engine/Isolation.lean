import BannedCalls.Proofs.Analysis.Findings

/-!
# Engines apart

The engines of a desk do not hear of each other. A step acts on the engine that it is meant for and
leaves the others as they were, so that an engine replies as if the steps for the others had not
been taken. The engine itself changes only by a build or an addition that succeeds; between two of
these it answers the same question in the same way.
-/

namespace BannedCalls.Desk

/-- A build or an addition that succeeds. -/
def Action.Takes : Action → Prop
  | .build pairs => ∃ list, Desk.build pairs = .ok list
  | .use (.add pair) => ∃ banned, (Offer.value pair).pair = .ok banned
  | .use .entries | .use (.run _) | .use (.visit _) => False

/-! ## One step -/

theorem serve_of_not_takes (list : BanList) {use : Use} (h : ¬ (Action.use use).Takes) :
    (serve list use).2 = list := by
  cases use with
  | add pair =>
    cases hp : (Offer.value pair).pair with
    | ok banned => exact absurd ⟨banned, hp⟩ h
    | error e =>
      have ha : list.add (.value pair) = .error e := by rw [BanList.add, hp]; rfl
      rw [serve, ha]
  | entries => rfl
  | run nodes => rfl
  | visit node => rfl

theorem act_of_not_takes (current : Option BanList) {action : Action} (h : ¬ action.Takes) :
    (act current action).2 = current := by
  cases action with
  | build pairs =>
    cases hb : Desk.build pairs with
    | ok list => exact absurd ⟨list, hb⟩ h
    | error e => rw [act, hb]
  | use use =>
    cases current with
    | none => rfl
    | some list => exact congrArg some (serve_of_not_takes list h)

/-- No action does away with an engine. -/
theorem eq_none_of_act_eq_none {current : Option BanList} {action : Action}
    (h : (act current action).2 = none) : current = none := by
  cases action with
  | build pairs =>
    cases hb : Desk.build pairs with
    | ok list => simp [act, hb] at h
    | error e => simpa [act, hb] using h
  | use use =>
    cases current with
    | none => rfl
    | some list => simp [act] at h

theorem step_eq (desk : Desk) (s : Step) :
    desk.step s = ((act (desk.engine? s.id) s.action).1,
      (act (desk.engine? s.id) s.action).2.elim desk (desk.put s.id)) := rfl

theorem engine?_step_self (desk : Desk) (s : Step) :
    (desk.step s).2.engine? s.id = (act (desk.engine? s.id) s.action).2 := by
  rw [step_eq]
  cases h : (act (desk.engine? s.id) s.action).2 with
  | none => exact eq_none_of_act_eq_none h
  | some list => exact engine?_put_self desk s.id list

theorem engine?_step_of_ne (desk : Desk) {s : Step} {id : Text} (h : s.id ≠ id) :
    (desk.step s).2.engine? id = desk.engine? id := by
  rw [step_eq]
  cases (act (desk.engine? s.id) s.action).2 with
  | none => rfl
  | some list => exact engine?_put_of_ne desk list h.symm

/-- A step sees of a desk only the engine that it is meant for. -/
theorem step_congr {desk alone : Desk} {s : Step} (h : desk.engine? s.id = alone.engine? s.id) :
    (desk.step s).1 = (alone.step s).1 ∧
      (desk.step s).2.engine? s.id = (alone.step s).2.engine? s.id := by
  constructor
  · rw [step_eq, step_eq, h]
  · rw [engine?_step_self, engine?_step_self, h]

/-- A step that takes nothing changes no engine. -/
theorem engine?_step_of_not_takes (desk : Desk) {s : Step} {id : Text}
    (h : s.id = id → ¬ s.action.Takes) : (desk.step s).2.engine? id = desk.engine? id := by
  by_cases hid : s.id = id
  · have ht := h hid
    subst hid
    rw [engine?_step_self, act_of_not_takes _ ht]
  · exact engine?_step_of_ne desk hid

/-! ## Any number of steps -/

/-- The desk that some steps leave. -/
def after (desk : Desk) (steps : List Step) : Desk :=
  steps.foldl (fun desk s => (desk.step s).2) desk

theorem after_append (desk : Desk) (xs ys : List Step) :
    desk.after (xs ++ ys) = (desk.after xs).after ys := List.foldl_append

theorem engine?_after_of_not_takes {id : Text} {steps : List Step}
    (h : ∀ s ∈ steps, s.id = id → ¬ s.action.Takes) (desk : Desk) :
    (desk.after steps).engine? id = desk.engine? id := by
  induction steps generalizing desk with
  | nil => rfl
  | cons s rest ih =>
    have hr := ih (fun t ht => h t (List.mem_cons_of_mem s ht)) (desk.step s).2
    exact hr.trans (engine?_step_of_not_takes desk (h s List.mem_cons_self))

/-- The steps for the other engines leave no trace in an engine. -/
theorem engine?_after_filter {desk alone : Desk} {id : Text}
    (h : desk.engine? id = alone.engine? id) (steps : List Step) :
    (desk.after steps).engine? id =
      (alone.after (steps.filter fun s => s.id = id)).engine? id := by
  induction steps generalizing desk alone with
  | nil => exact h
  | cons s rest ih =>
    by_cases hid : s.id = id
    · subst hid
      rw [List.filter_cons_of_pos (by simp)]
      exact ih (step_congr h).2
    · rw [List.filter_cons_of_neg (by simpa using hid)]
      exact ih ((engine?_step_of_ne desk hid).trans h)

theorem getElem?_replies (desk : Desk) (before : List Step) (s : Step) (rest : List Step) :
    (desk.replies (before ++ s :: rest))[before.length]? =
      some (act ((desk.after before).engine? s.id) s.action).1 := by
  induction before generalizing desk with
  | nil => rfl
  | cons t before ih => exact ih (desk.step t).2

/-- A step that takes nothing is replied to as before, if none of the steps in between takes
anything for its engine. -/
theorem getElem?_replies_again (desk : Desk) (before : List Step) {between : List Step} {s : Step}
    (hs : ¬ s.action.Takes) (hb : ∀ t ∈ between, t.id = s.id → ¬ t.action.Takes)
    (rest : List Step) :
    (desk.replies (before ++ s :: between ++ s :: rest))[before.length + 1 + between.length]? =
      (desk.replies (before ++ s :: between ++ s :: rest))[before.length]? := by
  have hn : ∀ t ∈ s :: between, t.id = s.id → ¬ t.action.Takes :=
    List.forall_mem_cons.2 ⟨fun _ => hs, hb⟩
  have hlater := getElem?_replies desk (before ++ s :: between) s rest
  have hearlier := getElem?_replies desk before s (between ++ s :: rest)
  rw [after_append, engine?_after_of_not_takes hn, List.length_append, List.length_cons,
    Nat.add_comm between.length, ← Nat.add_assoc] at hlater
  rw [hlater, List.append_assoc, List.cons_append, hearlier]

/-- Of the replies to some steps, those to the steps for one engine. -/
def repliesTo (id : Text) (steps : List Step) (replies : List (Except StepError Reply)) :
    List (Except StepError Reply) :=
  ((steps.zip replies).filter fun entry => entry.1.id = id).map Prod.snd

section

variable {id : Text} {s : Step} (steps : List Step) (reply : Except StepError Reply)
  (replies : List (Except StepError Reply))

theorem repliesTo_cons_of_eq (h : s.id = id) :
    repliesTo id (s :: steps) (reply :: replies) = reply :: repliesTo id steps replies := by
  simp [repliesTo, h]

theorem repliesTo_cons_of_ne (h : s.id ≠ id) :
    repliesTo id (s :: steps) (reply :: replies) = repliesTo id steps replies := by
  simp [repliesTo, h]

end

/-- Two desks with the same engine of a name give the same replies to the steps for it, also if one
of them takes the steps for the other engines in between. -/
theorem repliesTo_replies {desk alone : Desk} {id : Text}
    (h : desk.engine? id = alone.engine? id) (steps : List Step) :
    repliesTo id steps (desk.replies steps) =
      alone.replies (steps.filter fun s => s.id = id) := by
  induction steps generalizing desk alone with
  | nil => rfl
  | cons s rest ih =>
    rw [replies]
    by_cases hid : s.id = id
    · subst hid
      obtain ⟨hr, hs⟩ := step_congr h
      rw [repliesTo_cons_of_eq _ _ _ rfl, List.filter_cons_of_pos (by simp), replies, hr, ih hs]
    · -- Only the first desk takes the step, and it is another engine that may change by it.
      have hs : (desk.step s).2.engine? id = alone.engine? id :=
        (engine?_step_of_ne desk hid).trans h
      rw [repliesTo_cons_of_ne _ _ _ hid, List.filter_cons_of_neg (by simpa using hid), ih hs]

/-- An engine replies, and is left, as if the steps for the other engines had not been taken. What
takes nothing leaves every engine as it was; and a run finds what an earlier one found if nothing
was taken for the engine in between. -/
theorem replies_apart (desk : Desk) (id : Text) :
    (∀ steps : List Step,
      let own := steps.filter fun s => s.id = id
      repliesTo id steps (desk.replies steps) = desk.replies own ∧
        (desk.after steps).engine? id = (desk.after own).engine? id) ∧
    (∀ action : Action, ¬ action.Takes →
      ∀ other, (desk.step ⟨id, action⟩).2.engine? other = desk.engine? other) ∧
    (∀ (before between rest : List Step) (nodes : List Node) (list : BanList),
      (desk.after before).engine? id = some list →
      (∀ s ∈ between, s.id = id → ¬ s.action.Takes) →
      let run : Step := ⟨id, .use (.run nodes)⟩
      let replies := desk.replies (before ++ run :: between ++ run :: rest)
      let found := list.engine.run nodes
      replies[before.length]? = some (.ok (.findings found)) ∧
        replies[before.length + 1 + between.length]? = some (.ok (.findings found))) := by
  refine ⟨?_, ?_, ?_⟩
  · intro steps own
    exact ⟨repliesTo_replies rfl steps, engine?_after_filter rfl steps⟩
  · intro action ht other
    exact engine?_step_of_not_takes desk fun _ => ht
  · intro before between rest nodes list hl hb run replies found
    have hfirst : replies[before.length]? = some (.ok (.findings found)) := by
      have hr := getElem?_replies desk before run (between ++ run :: rest)
      rw [hl] at hr
      simp only [replies, List.append_assoc, List.cons_append]
      exact hr
    have ht : ¬ run.action.Takes := not_false
    exact ⟨hfirst, (getElem?_replies_again desk before ht hb rest).trans hfirst⟩

/-- Two engines: while the first is asked twice about a tree, the second takes a pair, and the first
is offered pairs that it refuses. -/
theorem replies_apart_two :
    let scope : Scope := ⟨nestedHost.fileSystem, some "/work/main.cpp"⟩
    let run : Step := ⟨"x", .use (.run (scope.nodes (nestedCall "main.cpp")))⟩
    let before : List Step := [⟨"x", .build (some (.arr [.arr [.str "a", .str "b"]]))⟩,
      ⟨"y", .build none⟩]
    let between : List Step := [⟨"y", .use (.add (.arr [.str "c", .str "d"]))⟩,
      ⟨"x", .build (some (.arr [.arr [.str "c", .str "d"], .null]))⟩,
      ⟨"x", .use (.add (.arr [.str "c"]))⟩]
    let steps := before ++ run :: between ++ [run]
    let replies := Desk.replies [] steps
    (∃ found : List Finding, found.length = 1 ∧
      replies[2]? = some (.ok (.findings found)) ∧ replies[6]? = some (.ok (.findings found))) ∧
    repliesTo "x" steps replies = Desk.replies [] (steps.filter fun s => s.id = "x") ∧
    ((Desk.after [] (before ++ between)).step run).2.engine? "y" = some ⟨[⟨"c", "d"⟩]⟩ := by
  intro scope run before between steps replies
  obtain ⟨hown, -, hagain⟩ := replies_apart [] "x"
  obtain ⟨-, hkept, -⟩ := replies_apart (Desk.after [] (before ++ between)) "x"
  have hb : ∀ s ∈ between, s.id = "x" → ¬ s.action.Takes := by
    refine List.forall_mem_cons.2
      ⟨?_, List.forall_mem_cons.2 ⟨?_, List.forall_mem_singleton.2 ?_⟩⟩
    · intro hid
      exact absurd hid (by decide)
    · rintro - ⟨list, ht⟩
      cases ht
    · rintro - ⟨banned, ht⟩
      cases ht
  obtain ⟨hfirst, hlater⟩ := hagain before between [] (scope.nodes (nestedCall "main.cpp"))
    ⟨[⟨"a", "b"⟩]⟩ rfl hb
  refine ⟨⟨_, ?_, hfirst, hlater⟩, (hown steps).1, (hkept run.action not_false "y").trans rfl⟩
  decide +kernel

end BannedCalls.Desk
