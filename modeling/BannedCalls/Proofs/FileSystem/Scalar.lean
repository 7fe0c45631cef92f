import BannedCalls.FileSystem.Basic
import BannedCalls.Proofs.Text.Split
import BannedCalls.Proofs.Text.Surrogates

/-!
# Scalar paths

A path is made of the steps of scalar texts, slashes and dots, so it is scalar: the way a message
shows it, its last step, and the path it resolves to, as long as the targets of links are.
-/

namespace BannedCalls

namespace Text

variable {t : Text}

theorem Scalar.of_mem_splitOn (h : t.Scalar) (sep : CodePoint) :
    ∀ piece ∈ splitOn sep t, piece.Scalar :=
  fun _ hm => h.of_subset (Text.of_mem_splitOn hm).1

theorem scalar_join {sep : Text} (hs : sep.Scalar) {pieces : List Text}
    (h : ∀ piece ∈ pieces, piece.Scalar) : (join sep pieces).Scalar := by
  fun_induction join sep pieces with
  | case1 => exact scalar_nil
  | case2 piece => exact h piece List.mem_cons_self
  | case3 piece next pieces ih =>
    obtain ⟨hp, h⟩ := List.forall_mem_cons.1 h
    simp [hp, hs, ih h]

end Text

namespace Path

open Text

variable {p base : Text}

theorem isSurrogate_separator : separator.isSurrogate = false := by decide

theorem scalar_separators : Scalar [separator] := by
  simp [isSurrogate_separator]

theorem scalar_steps (h : p.Scalar) : ∀ step ∈ steps p, step.Scalar := h.of_mem_splitOn separator

theorem scalar_join (hb : base.Scalar) (hp : p.Scalar) : (join base p).Scalar := by
  unfold join
  repeat' split
  · exact hp
  · exact scalar_append_iff.2 ⟨hb, hp⟩
  · exact scalar_append_iff.2 ⟨scalar_append_iff.2 ⟨hb, scalar_separators⟩, hp⟩

theorem scalar_baseName (h : p.Scalar) : (baseName p).Scalar :=
  h.of_subset fun _ hc =>
    List.mem_reverse.1 ((List.takeWhile_sublist _).subset (List.mem_reverse.1 hc))

theorem scalar_parent (h : p.Scalar) : (parent p).Scalar := by
  have hh : Scalar (p.reverse.dropWhile (· ≠ separator)).reverse :=
    h.of_subset fun _ hc =>
      List.mem_reverse.1 ((List.dropWhile_sublist _).subset (List.mem_reverse.1 hc))
  unfold parent
  dsimp only
  split
  · exact hh
  · exact hh.of_subset fun _ hc =>
      List.mem_reverse.1 ((List.dropWhile_sublist _).subset (List.mem_reverse.1 hc))

theorem scalar_root (p : Text) : (root p).Scalar := by
  unfold root
  split
  · exact scalar_nil
  · simp [isSurrogate_separator]
  · exact scalar_separators

theorem scalar_orDot (h : p.Scalar) : (orDot p).Scalar := by
  unfold orDot
  split
  · exact scalar_ofString _
  · exact h

theorem scalar_take {rooted : Bool} {taken : List Text} {step : Text}
    (ht : ∀ t ∈ taken, t.Scalar) (hs : step.Scalar) : ∀ t ∈ take rooted taken step, t.Scalar := by
  unfold take
  repeat' split
  · exact ht
  · simp
  · simpa using hs
  · exact List.forall_mem_cons.2 ⟨hs, ht⟩
  · exact fun t hm => ht t (List.mem_cons_of_mem _ hm)
  · exact List.forall_mem_cons.2 ⟨hs, ht⟩

theorem scalar_foldl_take {rooted : Bool} {taken steps : List Text}
    (ht : ∀ t ∈ taken, t.Scalar) (hs : ∀ step ∈ steps, step.Scalar) :
    ∀ t ∈ steps.foldl (take rooted) taken, t.Scalar := by
  induction steps generalizing taken with
  | nil => exact ht
  | cons step steps ih =>
    obtain ⟨h, hs⟩ := List.forall_mem_cons.1 hs
    exact ih (scalar_take ht h) hs

theorem scalar_normalize (h : p.Scalar) : (normalize p).Scalar := by
  have hf := @scalar_foldl_take (isRooted p) [] _ (by simp) (scalar_steps h)
  refine scalar_orDot (scalar_append_iff.2 ⟨scalar_root p, Text.scalar_join scalar_separators ?_⟩)
  exact fun t hm => hf t (List.mem_reverse.1 hm)

theorem scalar_absolute (hb : base.Scalar) (h : p.Scalar) : (absolute base p).Scalar :=
  scalar_normalize (scalar_join hb h)

theorem scalar_shown (h : p.Scalar) : (shown p).Scalar :=
  scalar_orDot (scalar_append_iff.2 ⟨scalar_root p, Text.scalar_join scalar_separators
    fun t hm => scalar_steps h t (List.mem_filter.1 hm).1⟩)

theorem scalar_up (h : p.Scalar) : (up p).Scalar := by
  unfold up
  repeat' split
  · exact scalar_ofString _
  · exact scalar_join (scalar_join (scalar_parent h) (scalar_ofString _)) (scalar_ofString _)
  · exact scalar_parent h

end Path

namespace FileSystem

open Text

variable {fs : FileSystem}

/-- The texts that a resolution takes in besides the path itself. -/
structure Scalar (fs : FileSystem) : Prop where
  workingDirectory : fs.workingDirectory.Scalar
  links : ∀ link ∈ fs.links, link.2.Scalar

theorem Scalar.target (hf : fs.Scalar) {p target : Text} (h : fs.target? p = some target) :
    target.Scalar := by
  obtain ⟨link, hl, rfl⟩ := Option.map_eq_some_iff.1 h
  exact hf.links link (List.mem_reverse.1 (List.mem_of_find?_eq_some hl))

theorem scalar_leave {path : Text} {rest : List Text} (hp : path.Scalar)
    (hr : ∀ step ∈ rest, step.Scalar) : (leave path rest).path.Scalar :=
  Path.scalar_join hp (Text.scalar_join Path.scalar_separators hr)

theorem scalar_start {path p : Text} (h : path.Scalar) : (start path p).Scalar := by
  unfold start
  split
  · exact Path.scalar_separators
  · exact h

/-- Steps taken from a scalar path lead to one, if following links does. -/
theorem scalar_resolveSteps (hf : fs.Scalar)
    {follow : List Text → Text → List Text → Resolution}
    (h : ∀ busy path steps, path.Scalar → (∀ step ∈ steps, step.Scalar) →
      (follow busy path steps).path.Scalar)
    {busy : List Text} {path : Text} {steps : List Text} (hp : path.Scalar)
    (hs : ∀ step ∈ steps, step.Scalar) : (fs.resolveSteps follow busy path steps).path.Scalar := by
  induction steps generalizing path with
  | nil => exact hp
  | cons step rest ih =>
    obtain ⟨hstep, hrest⟩ := List.forall_mem_cons.1 hs
    have hn := Path.scalar_join hp hstep
    rw [resolveSteps]
    split
    · exact ih hp hrest
    · split
      · exact ih (Path.scalar_up hp) hrest
      · dsimp only
        split
        · exact ih hn hrest
        · next target ht =>
          have hr := h (Path.join path step :: busy) _ _ (@scalar_start _ target hp)
            (Path.scalar_steps (hf.target ht))
          split
          · exact scalar_leave hn hrest
          · split
            · exact scalar_leave hr hrest
            · exact ih hr hrest

theorem scalar_resolve (hf : fs.Scalar) (depth : Nat) {busy : List Text} {path : Text}
    {steps : List Text} (hp : path.Scalar) (hs : ∀ step ∈ steps, step.Scalar) :
    (fs.resolve depth busy path steps).path.Scalar := by
  induction depth generalizing busy path steps with
  | zero => exact scalar_resolveSteps hf (fun _ _ _ => scalar_leave) hp hs
  | succ depth ih => exact scalar_resolveSteps hf (fun _ _ _ => ih) hp hs

theorem scalar_realPath (hf : fs.Scalar) {p : Text} (h : p.Scalar) : (fs.realPath p).Scalar :=
  Path.scalar_absolute hf.workingDirectory
    (scalar_resolve hf fs.depth (scalar_start scalar_nil) (Path.scalar_steps h))

end FileSystem

end BannedCalls
