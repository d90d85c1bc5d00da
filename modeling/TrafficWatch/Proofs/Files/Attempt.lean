import TrafficWatch.Proofs.Files.Path
import TrafficWatch.Proofs.Files.Tree

/-!
# Files — Attempt

An attempt to keep something may stop anywhere: after any of its steps, and in the middle of writing
a file.  `FileStep.Cut` says of two lists of steps that the first is what happened of the second,
and an `Attempt` is a cut of the steps that keep a calibration.  Whatever the file system does to
`FileTree.keep`, it makes an attempt of it (`exists_attempt`).

Since a file is written beside its place and then renamed, each of the files is replaced as a whole
or not at all (`replaced_or_not`).
-/

namespace TrafficWatch

/-! ### Attempts -/

/-- What happened of a list of steps, when it may have stopped anywhere. -/
inductive FileStep.Cut : List FileStep → List FileStep → Prop where
  /-- Nothing more happened. -/
  | stop (steps : List FileStep) : Cut [] steps
  /-- A part of a file was written, or something else in its place. -/
  | torn (p : Path) (part bytes : ByteArray) (rest : List FileStep) :
      Cut [.write p part] (.write p bytes :: rest)
  | step (s : FileStep) {done rest : List FileStep} (h : Cut done rest) :
      Cut (s :: done) (s :: rest)

/-- Whether a step puts a file in the place to which a path leads. -/
def FileStep.isRenameTo (p : Path) : FileStep → Bool
  | .rename _ target => decide (target = p)
  | _ => false

/-- An attempt to keep something. -/
structure Attempt (paths : ModelPaths) where
  calibration : Calibration
  /-- The steps that happened. -/
  done : List FileStep
  cut : FileStep.Cut done (calibration.steps paths)

namespace Attempt

variable {paths : ModelPaths}

/-- The threshold was put in its place. -/
def commits (a : Attempt paths) : Bool :=
  a.done.any (FileStep.isRenameTo (.parse paths.threshold))

/-- All steps happened. -/
def IsComplete (a : Attempt paths) : Prop :=
  a.done = a.calibration.steps paths

/-- What the last attempt was to keep that put a threshold in its place. -/
def committed? (attempts : List (Attempt paths)) : Option Calibration :=
  (attempts.reverse.find? commits).map calibration

theorem committed?_snoc (attempts : List (Attempt paths)) (a : Attempt paths) :
    committed? (attempts ++ [a]) =
      if a.commits then some a.calibration else committed? attempts := by
  rw [committed?, List.reverse_append, List.reverse_singleton, List.singleton_append,
    List.find?_cons]
  cases h : a.commits
  · rfl
  · rfl

end Attempt

namespace FileStep.Cut

theorem refl (steps : List FileStep) : Cut steps steps := by
  induction steps with
  | nil => exact .stop _
  | cons s rest ih => exact .step s ih

/-- Nothing but the first steps happened. -/
theorem take (n : Nat) (steps : List FileStep) : Cut (steps.take n) steps := by
  induction steps generalizing n with
  | nil =>
      rw [List.take_nil]
      exact .stop _
  | cons s rest ih =>
      cases n with
      | zero => exact .stop _
      | succ n => exact .step s (ih n)

/-- The steps came to an end before the second part, or within it. -/
theorem append {done first second : List FileStep} (h : Cut done (first ++ second)) :
    Cut done first ∨ ∃ later, done = first ++ later ∧ Cut later second := by
  induction first generalizing done with
  | nil => exact .inr ⟨done, rfl, h⟩
  | cons s rest ih =>
      cases h with
      | stop => exact .inl (.stop _)
      | torn p part bytes => exact .inl (.torn ..)
      | step _ h =>
          rcases ih h with h | ⟨later, rfl, hlater⟩
          · exact .inl (.step s h)
          · exact .inr ⟨later, rfl, hlater⟩

/-- Directories are made as a whole or not at all. -/
theorem makeDirectories {done : List FileStep} {way : List Path}
    (h : Cut done (way.map .makeDirectory)) :
    ∃ made : List Path, done = made.map .makeDirectory := by
  induction way generalizing done with
  | nil =>
      cases h
      exact ⟨[], rfl⟩
  | cons p rest ih =>
      cases h with
      | stop => exact ⟨[], rfl⟩
      | step _ h =>
          obtain ⟨made, rfl⟩ := ih h
          exact ⟨p :: made, rfl⟩

end FileStep.Cut

open FileStep (Cut isRenameTo)
open ModelPaths (finalPlace draftPlace)

/-- **What the file system does to a list of steps is a cut of it.** -/
theorem FileTree.exists_cut (t : FileTree) (steps : List FileStep) :
    ∃ done, Cut done steps ∧ t.performAll done = (true, (t.performAll steps).2) ∧
      ((t.performAll steps).1 = true → done = steps) := by
  induction steps generalizing t with
  | nil => exact ⟨[], .stop _, rfl, fun _ => rfl⟩
  | cons s rest ih =>
      unfold performAll
      cases hs : t.perform? s with
      | none => exact ⟨[], .stop _, rfl, fun h => Bool.noConfusion h⟩
      | some t₁ =>
          obtain ⟨done, hcut, hrun, hall⟩ := ih t₁
          refine ⟨s :: done, .step s hcut, ?_, fun h => congrArg (s :: ·) (hall h)⟩
          simp only [hs, hrun]

/-- Keeping something is an attempt to keep it, and a complete one if it succeeds. -/
theorem FileTree.exists_attempt (t : FileTree) (paths : ModelPaths) (c : Calibration) :
    ∃ a : Attempt paths, a.calibration = c ∧ t.performAll a.done = (true, (t.keep paths c).2) ∧
      ((t.keep paths c).1 = true → a.IsComplete) := by
  obtain ⟨done, hcut, hrun, hall⟩ := t.exists_cut (c.steps paths)
  exact ⟨⟨c, done, hcut⟩, rfl, hrun, hall⟩

/-! ### Replacing one file -/

section Replacing

variable {t t' : FileTree} {path : String} {bytes : ByteArray} {done : List FileStep}

theorem any_isRenameTo_makeDirectories (p : Path) (made : List Path) :
    (made.map FileStep.makeDirectory).any (isRenameTo p) = false := by
  simp [isRenameTo]

/-- The new file took the place of the old one. -/
structure Replaced (path : String) (bytes : ByteArray) (done : List FileStep) (t t' : FileTree) :
    Prop where
  all : done = replaceSteps path bytes
  commits : ∀ p, done.any (isRenameTo p) = decide (Path.parse path = p)
  file : t'.file? (finalPlace path) = some bytes
  leads : t'.fault? (.parse path) = none
  keeps : t.Keeps [draftPlace path, finalPlace path] t'

/-- The old file, if there was one, is still there. -/
structure NotReplaced (path : String) (done : List FileStep) (t t' : FileTree) : Prop where
  commits : ∀ p, done.any (isRenameTo p) = false
  keeps : t.Keeps [draftPlace path] t'

/-- **A file is replaced as a whole or not at all**, wherever the steps that replace it stop. -/
theorem replaced_or_not (hcut : Cut done (replaceSteps path bytes))
    (hrun : t.performAll done = (true, t')) :
    Replaced path bytes done t t' ∨ NotReplaced path done t t' := by
  rcases hcut.append with hway | ⟨later, rfl, hlater⟩
  · -- it stopped on the way to the file
    obtain ⟨made, rfl⟩ := hway.makeDirectories
    exact .inr ⟨fun p => any_isRenameTo_makeDirectories p made,
      (FileTree.makeDirectories_spec hrun).mono (List.nil_subset _)⟩
  · obtain ⟨t₁, hway, hrun⟩ := FileTree.performAll_append_ok hrun
    have hkeeps := FileTree.makeDirectories_spec hway
    have hany (p : Path) (l : List FileStep) :
        (FileStep.makeWay (Path.parse path).parent ++ l).any (isRenameTo p) =
          l.any (isRenameTo p) := by
      rw [List.any_append, FileStep.makeWay, any_isRenameTo_makeDirectories, Bool.false_or]
    cases hlater with
    | stop =>
        cases hrun
        exact .inr ⟨fun p => hany p [], hkeeps.mono (List.nil_subset _)⟩
    | torn _ part =>
        obtain ⟨t₂, hwrite, hrun⟩ := FileTree.performAll_cons_ok hrun
        cases hrun
        exact .inr ⟨fun p => hany p _,
          (hkeeps.mono (List.nil_subset _)).trans (FileTree.write_spec hwrite).1⟩
    | step _ hlater =>
        obtain ⟨t₂, hwrite, hrun⟩ := FileTree.performAll_cons_ok hrun
        obtain ⟨hdraft, hfile⟩ := FileTree.write_spec hwrite
        have hkeeps := (hkeeps.mono (List.nil_subset _)).trans hdraft
        cases hlater with
        | stop =>
            cases hrun
            exact .inr ⟨fun p => hany p _, hkeeps⟩
        | step _ hlater =>
            obtain ⟨t₃, hrename, hrun⟩ := FileTree.performAll_cons_ok hrun
            cases hlater
            cases hrun
            -- the whole draft was written before, so the whole of it is in the place now
            obtain ⟨hmoved, hthere, -, hleads⟩ := FileTree.rename_spec hrename
            refine .inl ⟨rfl, fun p => (hany p _).trans (Bool.or_false _), hthere.trans hfile,
              hleads, ?_⟩
            exact (hkeeps.mono (by simp [draftPlace])).trans hmoved

theorem any_isRenameTo_replaceSteps (path : String) (bytes : ByteArray) :
    (replaceSteps path bytes).any (isRenameTo (.parse path)) = true := by
  simp [replaceSteps, isRenameTo]

/-- When all steps happened, the file was replaced. -/
theorem replaced_of_all (hrun : t.performAll (replaceSteps path bytes) = (true, t')) :
    Replaced path bytes (replaceSteps path bytes) t t' := by
  rcases replaced_or_not (Cut.refl _) hrun with h | h
  · exact h
  · have hany := h.commits (.parse path)
    rw [any_isRenameTo_replaceSteps] at hany
    cases hany

/-- Replacing a file concerns the file and its draft, however far it comes. -/
theorem keeps_of_cut (hcut : Cut done (replaceSteps path bytes))
    (hrun : t.performAll done = (true, t')) : t.Keeps [draftPlace path, finalPlace path] t' := by
  rcases replaced_or_not hcut hrun with h | h
  · exact h.keeps
  · exact h.keeps.mono (by simp)

end Replacing

/-- A removal with which an attempt ends concerns the file only, whether it comes to it or not. -/
theorem keeps_of_cut_remove {t t' : FileTree} {p : Path} {done : List FileStep}
    (hcut : Cut done [.remove p]) (hrun : t.performAll done = (true, t')) :
    t.Keeps [p.place] t' := by
  cases hcut with
  | stop =>
      cases hrun
      exact .refl _ _
  | step _ hcut =>
      cases hcut
      obtain ⟨t₁, hremove, hrun⟩ := FileTree.performAll_cons_ok hrun
      cases hrun
      exact (FileTree.remove_spec hremove).1

end TrafficWatch
