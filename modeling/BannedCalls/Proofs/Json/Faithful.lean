import BannedCalls.Proofs.Json.RoundTrip

/-!
# Faithful values

A value is faithful if no text in it has two halves to be joined and no object in it has two members
of one name. Such a value is the same when it is printed and read, and nothing else is ever read.
-/

namespace BannedCalls.Json

/-- A value that is the same when printed and read. -/
inductive Faithful : Json → Prop
  | null : Faithful null
  | bool (b : Bool) : Faithful (bool b)
  | int (n : Int) : Faithful (int n)
  | real (x : Numeral) : Faithful (real x)
  | str {t : Text} (ht : t.Unpaired) : Faithful (str t)
  | arr {items : List Json} (hi : ∀ item ∈ items, Faithful item) : Faithful (arr items)
  | obj {members : List (Text × Json)} (hd : (members.map Prod.fst).Nodup)
    (hn : ∀ m ∈ members, m.1.Unpaired) (hv : ∀ m ∈ members, Faithful m.2) : Faithful (obj members)

theorem insert_of_not_mem {name : Text} {members : List (Text × Json)}
    (h : name ∉ members.map Prod.fst) (value : Json) :
    insert name value members = members ++ [(name, value)] := by
  induction members with
  | nil => rfl
  | cons member rest ih =>
    obtain ⟨hn, hr⟩ := not_or.1 (mt List.mem_cons.2 h)
    rw [insert, if_neg (Ne.symm hn), ih hr]
    rfl

theorem foldl_insert_of_nodup {known members : List (Text × Json)}
    (h : ((known ++ members).map Prod.fst).Nodup) :
    members.foldl (fun known member => insert member.1 member.2 known) known =
      known ++ members := by
  induction members generalizing known with
  | nil => exact (List.append_nil known).symm
  | cons member rest ih =>
    have hs : known ++ member :: rest = known ++ [member] ++ rest := List.append_cons ..
    have hm : member.1 ∉ known.map Prod.fst := by
      rw [List.map_append] at h
      exact fun hk => (List.nodup_append.1 h).2.2 _ hk _ List.mem_cons_self rfl
    rw [hs] at h ⊢
    rw [List.foldl_cons, insert_of_not_mem hm, ih h]

/-- Members of different names stand in their object as they come. -/
theorem object_of_nodup {members : List (Text × Json)} (h : (members.map Prod.fst).Nodup) :
    object members = obj members :=
  congrArg obj (@foldl_insert_of_nodup [] members h)

theorem reread_of_faithful {j : Json} (h : Faithful j) : j.reread = j := by
  induction h with
  | null | bool b | int n | real x => rfl
  | str ht => rw [reread, joinPairs_of_unpaired ht]
  | arr hi ih => rw [reread, rereadItems_eq_map, List.map_congr_left ih, List.map_id']
  | obj hd hn hv ih =>
    have hm : ∀ m ∈ _, (joinPairs m.1, reread m.2) = m := fun m hm => by
      rw [joinPairs_of_unpaired (hn m hm), ih m hm]
    rw [reread, rereadMembers_eq_map, List.map_congr_left hm, List.map_id', object_of_nodup hd]

theorem Faithful.list {α : Type} {f : α → Json} {xs : List α} (h : ∀ x ∈ xs, Faithful (f x)) :
    Faithful (Json.arr (xs.map f)) := by
  refine .arr fun item hi => ?_
  obtain ⟨x, hx, rfl⟩ := List.mem_map.1 hi
  exact h x hx

/-- An object whose names are literals. -/
theorem Faithful.record (names : List String) {fields : List (String × Json)}
    (hn : fields.map Prod.fst = names) (hd : (names.map Text.ofString).Nodup)
    (hv : ∀ f ∈ fields, Faithful f.2) :
    Faithful (Json.obj (fields.map fun f => ((f.1 : Text), f.2))) := by
  refine .obj ?_ (fun m hm => ?_) fun m hm => ?_
  · rw [← hn, List.map_map] at hd
    rwa [List.map_map]
  · obtain ⟨f, -, rfl⟩ := List.mem_map.1 hm
    exact (Text.scalar_ofString f.1).unpaired
  · obtain ⟨f, hf, rfl⟩ := List.mem_map.1 hm
    exact hv f hf

/-- Reading undoes printing of a faithful value, whatever white space follows. -/
theorem read_print_of_faithful {j : Json} (h : Faithful j) {blank : Text}
    (hb : ∀ c ∈ blank, isSpace c) : read (j.print ++ blank) = .ok j := by
  rw [read_print j hb, reread_of_faithful h]

/-! ## Values read -/

theorem mem_insert {name : Text} {value : Json} {members : List (Text × Json)} {m : Text × Json}
    (h : m ∈ insert name value members) : m = (name, value) ∨ m ∈ members := by
  induction members with
  | nil => exact Or.inl (List.mem_singleton.1 h)
  | cons member rest ih =>
    obtain ⟨other, old⟩ := member
    rw [insert] at h
    split at h
    · exact (List.mem_cons.1 h).imp_right (List.mem_cons_of_mem _)
    · rcases List.mem_cons.1 h with rfl | h
      · exact Or.inr List.mem_cons_self
      · exact (ih h).imp_right (List.mem_cons_of_mem _)

theorem nodup_insert (name : Text) (value : Json) {members : List (Text × Json)}
    (h : (members.map Prod.fst).Nodup) : ((insert name value members).map Prod.fst).Nodup := by
  induction members with
  | nil => exact List.nodup_cons.2 ⟨List.not_mem_nil, List.nodup_nil⟩
  | cons member rest ih =>
    obtain ⟨other, old⟩ := member
    obtain ⟨ho, hr⟩ := List.nodup_cons.1 h
    rw [insert]
    split
    · next he => exact List.nodup_cons.2 ⟨he ▸ ho, hr⟩
    · next he =>
      refine List.nodup_cons.2 ⟨fun hm => ?_, ih hr⟩
      obtain ⟨m, hm, hn⟩ := List.mem_map.1 hm
      rcases mem_insert hm with rfl | hm
      · exact he hn.symm
      · exact ho (List.mem_map.2 ⟨m, hm, hn⟩)

theorem faithful_object {members : List (Text × Json)}
    (h : ∀ m ∈ members, m.1.Unpaired ∧ Faithful m.2) : Faithful (object members) := by
  have hf (known : List (Text × Json)) (hd : (known.map Prod.fst).Nodup)
      (hk : ∀ m ∈ known, m.1.Unpaired ∧ Faithful m.2) :
      Faithful (obj (members.foldl (fun known m => insert m.1 m.2 known) known)) := by
    induction members generalizing known with
    | nil => exact .obj hd (fun m hm => (hk m hm).1) fun m hm => (hk m hm).2
    | cons member rest ih =>
      obtain ⟨hm, hr⟩ := List.forall_mem_cons.1 h
      refine ih hr _ (nodup_insert _ _ hd) fun m hi => ?_
      rcases mem_insert hi with rfl | hi
      · exact hm
      · exact hk m hi
  exact hf [] List.nodup_nil (fun _ hm => absurd hm List.not_mem_nil)

variable {t rest : Text} {value : Json}

theorem unpaired_of_readText {opening text : Text}
    (h : readText opening t = .ok (text, rest)) : text.Unpaired := by
  obtain ⟨⟨units, after⟩, -, he⟩ := bind_eq_ok_iff.1 h
  obtain ⟨rfl, -⟩ := Prod.mk.inj (Except.ok.inj he)
  exact unpaired_joinPairs units

theorem faithful_of_mem_words {word : Text × Json} (h : word ∈ words) : Faithful word.2 := by
  simp only [words, List.mem_cons, List.not_mem_nil, or_false] at h
  rcases h with rfl | rfl | rfl | rfl | rfl | rfl
  all_goals first | exact .null | exact .bool _ | exact .real _

theorem faithful_of_readWord? (h : readWord? t = some (value, rest)) : Faithful value := by
  obtain ⟨⟨word, found⟩, hw, he⟩ := List.exists_of_findSome?_eq_some h
  simp only [Option.ite_none_right_eq_some, Option.some.injEq, Prod.mk.injEq] at he
  obtain ⟨-, rfl, -⟩ := he
  exact faithful_of_mem_words hw

theorem faithful_number (negative : Bool) (whole : Nat) (fraction : List (Fin 10))
    (exponent : Option Int) : Faithful (number negative whole fraction exponent) := by
  unfold number
  split
  · exact .int _
  · exact .real _
  · exact .real _

theorem faithful_of_readNumber? (h : readNumber? t = some (value, rest)) : Faithful value := by
  obtain ⟨⟨whole, after⟩, -, he⟩ := Option.bind_eq_some_iff.1 h
  obtain ⟨rfl, -⟩ := Prod.mk.inj (Option.some.inj he)
  exact faithful_number _ _ _ _

/-- The readers hand on faithful values with so much fuel. -/
structure ReadsFaithful (fuel : Nat) : Prop where
  value : ∀ {t value rest}, readValue fuel t = .ok (value, rest) → Faithful value
  items : ∀ {t items rest}, readItems fuel t = .ok (items, rest) → ∀ i ∈ items, Faithful i
  members : ∀ {t members rest}, readMembers fuel t = .ok (members, rest) →
    ∀ m ∈ members, m.1.Unpaired ∧ Faithful m.2

namespace ReadsFaithful

variable {fuel : Nat}

theorem value_succ (hf : ReadsFaithful fuel) (h : readValue (fuel + 1) t = .ok (value, rest)) :
    Faithful value := by
  rw [readValue] at h
  split at h
  · obtain ⟨⟨text, after⟩, ht, he⟩ := bind_eq_ok_iff.1 h
    obtain ⟨rfl, -⟩ := Prod.mk.inj (Except.ok.inj he)
    exact .str (unpaired_of_readText ht)
  · split at h
    · split at h
      · obtain ⟨rfl, -⟩ := Prod.mk.inj (Except.ok.inj h)
        exact .arr fun _ hi => absurd hi List.not_mem_nil
      · obtain ⟨⟨items, after⟩, hi, he⟩ := bind_eq_ok_iff.1 h
        obtain ⟨rfl, -⟩ := Prod.mk.inj (Except.ok.inj he)
        exact .arr (hf.items hi)
    · split at h
      · split at h
        · obtain ⟨rfl, -⟩ := Prod.mk.inj (Except.ok.inj h)
          exact faithful_object fun _ hm => absurd hm List.not_mem_nil
        · obtain ⟨⟨members, after⟩, hm, he⟩ := bind_eq_ok_iff.1 h
          obtain ⟨rfl, -⟩ := Prod.mk.inj (Except.ok.inj he)
          exact faithful_object (hf.members hm)
      · split at h
        · next found hs =>
          obtain rfl := Except.ok.inj h
          rcases Option.or_eq_some_iff.1 hs with hw | ⟨-, hn⟩
          · exact faithful_of_readWord? hw
          · exact faithful_of_readNumber? hn
        · simp at h

theorem items_succ (hf : ReadsFaithful fuel) {items : List Json}
    (h : readItems (fuel + 1) t = .ok (items, rest)) : ∀ i ∈ items, Faithful i := by
  rw [readItems] at h
  obtain ⟨⟨item, after⟩, hi, h⟩ := bind_eq_ok_iff.1 h
  dsimp only at h
  split at h
  · obtain ⟨⟨others, after⟩, hr, he⟩ := bind_eq_ok_iff.1 h
    obtain ⟨rfl, -⟩ := Prod.mk.inj (Except.ok.inj he)
    exact List.forall_mem_cons.2 ⟨hf.value hi, hf.items hr⟩
  · split at h
    · obtain ⟨rfl, -⟩ := Prod.mk.inj (Except.ok.inj h)
      exact List.forall_mem_singleton.2 (hf.value hi)
    · simp at h

theorem members_succ (hf : ReadsFaithful fuel) {members : List (Text × Json)}
    (h : readMembers (fuel + 1) t = .ok (members, rest)) :
    ∀ m ∈ members, m.1.Unpaired ∧ Faithful m.2 := by
  rw [readMembers] at h
  split at h
  · simp at h
  · obtain ⟨⟨name, after⟩, hn, h⟩ := bind_eq_ok_iff.1 h
    have hu := unpaired_of_readText hn
    dsimp only at h
    split at h
    · simp at h
    · obtain ⟨⟨value, after⟩, hv, h⟩ := bind_eq_ok_iff.1 h
      dsimp only at h
      split at h
      · obtain ⟨⟨others, after⟩, hr, he⟩ := bind_eq_ok_iff.1 h
        obtain ⟨rfl, -⟩ := Prod.mk.inj (Except.ok.inj he)
        exact List.forall_mem_cons.2 ⟨⟨hu, hf.value hv⟩, hf.members hr⟩
      · split at h
        · obtain ⟨rfl, -⟩ := Prod.mk.inj (Except.ok.inj h)
          exact List.forall_mem_singleton.2 ⟨hu, hf.value hv⟩
        · simp at h

end ReadsFaithful

theorem readsFaithful (fuel : Nat) : ReadsFaithful fuel := by
  induction fuel with
  | zero =>
    refine ⟨fun h => ?_, fun h => ?_, fun h => ?_⟩
    · simp [readValue] at h
    · simp [readItems] at h
    · simp [readMembers] at h
  | succ fuel ih => exact ⟨ih.value_succ, ih.items_succ, ih.members_succ⟩

theorem faithful_of_read (h : read t = .ok value) : Faithful value := by
  have hd : readDocument t = .ok value := by
    rw [read] at h
    cases he : readDocument t with
    | error e => simp [he, mapError_error] at h
    | ok found =>
      obtain rfl : found = value := by simpa [he, mapError_ok] using h
      rfl
  rw [readDocument] at hd
  split at hd
  · obtain ⟨_, he, -⟩ := bind_eq_ok_iff.1 hd
    cases he
  · obtain ⟨⟨found, after⟩, hv, he⟩ := bind_eq_ok_iff.1 hd
    dsimp only at he
    split at he
    · obtain rfl := Except.ok.inj he
      exact (readsFaithful _).value hv
    · simp at he

end BannedCalls.Json
