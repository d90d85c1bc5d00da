import Mathlib.Data.List.Basic
import TrafficWatch.Files.Tree

/-!
# Files — Tree

What a primitive step leaves as it was.  The content of a tree is told by `FileTree.file?`, which
sees files and no directories: a step changes the files at the places it names and no others, and it
never takes a directory away.  `FileTree.Keeps` says this of two trees and a list of places, and
there is one lemma for each step (`remove_spec`, `makeDirectory_spec`, `write_spec`,
`rename_spec`).  Since directories stay, a path that once led to a place leads there ever after
(`Keeps.fault?`).

Nor does a step look at what files hold (`perform?_blank`): whether steps can be done depends on what
stands where, and not on the bytes that are there or are written (`performAll_blank`).
-/

namespace TrafficWatch

namespace FileTree

/-- The bytes of the file at a place. -/
def file? (t : FileTree) (here : Place) : Option ByteArray :=
  match t.entry? here with
  | some (.file bytes) => some bytes
  | _ => none

/-- Whether a directory is at a place. -/
def HasDirectory (t : FileTree) (here : Place) : Prop :=
  t.entry? here = some .directory

theorem file?_eq_some {t : FileTree} {here : Place} {bytes : ByteArray} :
    t.file? here = some bytes ↔ t.entry? here = some (.file bytes) := by
  unfold file?
  split
  · rename_i h
    simp [h]
  · rename_i hother
    refine ⟨fun h => ?_, fun h => absurd h (hother bytes)⟩
    cases h

theorem hasDirectory_root (t : FileTree) : t.HasDirectory [] := rfl

/-! ### Entries -/

theorem entry_of_ne_nil (t : FileTree) {here : Place} (h : here ≠ []) :
    t.entry? here = t.entries.lookup here := by
  unfold entry?
  rw [if_neg (by simpa using h)]

theorem lookup_filter_ne (entries : List (Place × FileEntry)) (here q : Place) :
    (entries.filter fun e => e.1 != here).lookup q =
      if q = here then none else entries.lookup q := by
  induction entries with
  | nil => simp
  | cons e rest ih =>
      obtain ⟨p, entry⟩ := e
      by_cases hp : p = here
      · rw [List.filter_cons_of_neg (by simpa using hp), ih]
        by_cases hq : q = here
        · rw [if_pos hq, if_pos hq]
        · rw [if_neg hq, if_neg hq, List.lookup_cons, beq_false_of_ne (hp ▸ hq)]
      · rw [List.filter_cons_of_pos (by simpa using hp), List.lookup_cons, List.lookup_cons, ih]
        by_cases hq : q = p
        · subst hq
          simp [hp]
        · simp [beq_false_of_ne hq]

/-- What stands at the places of a tree from which something was erased. -/
theorem entry_erase (t : FileTree) (here q : Place) :
    FileTree.entry? (t.erase here) q = if q = here ∧ q ≠ [] then none else t.entry? q := by
  by_cases hq : q = []
  · subst hq
    rw [if_neg fun h => h.2 rfl, hasDirectory_root, hasDirectory_root]
  · rw [entry_of_ne_nil _ hq, entry_of_ne_nil _ hq, erase, lookup_filter_ne]
    simp [hq]

/-- What stands at the places of a tree to which something was added. -/
theorem entry_put (t : FileTree) {here : Place} (hhere : here ≠ []) (e : FileEntry) (q : Place) :
    FileTree.entry? (t.put here e) q = if q = here then some e else t.entry? q := by
  by_cases hq : q = []
  · subst hq
    exact (if_neg (Ne.symm hhere)).symm
  · rw [entry_of_ne_nil _ hq, put, List.lookup_cons]
    by_cases h : q = here
    · rw [if_pos h, beq_iff_eq.mpr h]
    · rw [if_neg h, beq_false_of_ne h, ← entry_of_ne_nil (t.erase here) hq, entry_erase, if_neg]
      exact fun hand => h hand.1

/-! ### What stays -/

/-- Files stay as they are, except at some places, and directories stay. -/
structure Keeps (except : List Place) (t t' : FileTree) : Prop where
  files : ∀ q ∉ except, t'.file? q = t.file? q
  directories : ∀ q, t.HasDirectory q → t'.HasDirectory q

variable {t t₁ t' : FileTree} {p : Path} {except except₁ : List Place}

namespace Keeps

theorem refl (except : List Place) (t : FileTree) : Keeps except t t :=
  ⟨fun _ _ => rfl, fun _ h => h⟩

theorem mono (h : Keeps except t t') (hsub : except ⊆ except₁) : Keeps except₁ t t' :=
  ⟨fun q hq => h.files q fun hmem => hq (hsub hmem), h.directories⟩

theorem trans (h : Keeps except t t₁) (h₁ : Keeps except t₁ t') : Keeps except t t' :=
  ⟨fun q hq => (h₁.files q hq).trans (h.files q hq),
    fun q hq => h₁.directories q (h.directories q hq)⟩

theorem faultAlong? (h : Keeps except t t') {here : Place} {names : List String}
    (hnone : t.faultAlong? here names = none) : t'.faultAlong? here names = none := by
  induction names generalizing here with
  | nil => rfl
  | cons name rest ih =>
      unfold FileTree.faultAlong? at hnone ⊢
      split at hnone
      · rename_i hdir
        rw [h.directories here hdir]
        simp only
        split at hnone
        · rw [if_pos ‹_›]
          exact ih hnone
        · cases hnone
      · cases hnone
      · cases hnone

/-- A path that led to a place still leads there. -/
theorem fault? (h : Keeps except t t') (hp : t.fault? p = none) : t'.fault? p = none := by
  unfold FileTree.fault? at hp ⊢
  split at hp
  · rw [if_pos ‹_›]
    exact h.faultAlong? hp
  · cases hp

/-- Where something stood, outside of the places that changed, something stands. -/
theorem exists_entry (h : Keeps except t t') {q : Place} (hq : q ∉ except) {e : FileEntry}
    (hentry : t.entry? q = some e) : ∃ e', t'.entry? q = some e' := by
  cases e with
  | directory => exact ⟨_, h.directories q hentry⟩
  | file bytes => exact ⟨_, file?_eq_some.mp ((h.files q hq).trans (file?_eq_some.mpr hentry))⟩

end Keeps

/-! ### One lemma for each step -/

theorem locate_ok {here : Place} (h : t.locate p = .ok here) :
    t.fault? p = none ∧ here = p.place := by
  unfold locate at h
  split at h
  · exact ⟨‹_›, (Except.ok.inj h).symm⟩
  · cases h

theorem keeps_erase {here : Place} {bytes : ByteArray} (h : t.entry? here = some (.file bytes)) :
    Keeps [here] t (t.erase here) := by
  refine ⟨fun q hq => ?_, fun q hdir => ?_⟩
  · rw [file?, entry_erase, if_neg fun hand => hq (List.mem_singleton.mpr hand.1), ← file?]
  · unfold HasDirectory at hdir ⊢
    rw [entry_erase, if_neg, hdir]
    rintro ⟨rfl, -⟩
    rw [hdir] at h
    cases h

theorem ne_nil_of_not_hasDirectory {here : Place} (h : ¬ t.HasDirectory here) : here ≠ [] := by
  rintro rfl
  exact h (hasDirectory_root t)

theorem keeps_put {here : Place} (h : ¬ t.HasDirectory here) (e : FileEntry) :
    Keeps [here] t (t.put here e) := by
  have hne := ne_nil_of_not_hasDirectory h
  refine ⟨fun q hq => ?_, fun q hdir => ?_⟩
  · rw [file?, entry_put _ hne, if_neg fun heq => hq (List.mem_singleton.mpr heq), ← file?]
  · unfold HasDirectory
    rw [entry_put _ hne, if_neg, hdir]
    rintro rfl
    exact h hdir

theorem putFile?_spec {here : Place} {bytes : ByteArray} (h : t.putFile? here bytes = some t') :
    Keeps [here] t t' ∧ t'.file? here = some bytes := by
  unfold putFile? at h
  split at h
  · cases h
  · rename_i hdir
    cases h
    refine ⟨keeps_put hdir _, ?_⟩
    rw [file?_eq_some, entry_put _ (ne_nil_of_not_hasDirectory hdir), if_pos rfl]

/-- A file that was removed is gone; a path that leads nowhere removes nothing. -/
theorem remove_spec (h : t.perform? (.remove p) = some t') :
    Keeps [p.place] t t' ∧ (t'.file? p.place = none ∨ t.fault? p ≠ none ∧ t' = t) := by
  simp only [perform?] at h
  split at h
  · rename_i hmissing
    cases h
    refine ⟨.refl _ _, .inr ⟨fun hp => ?_, rfl⟩⟩
    rw [locate, hp] at hmissing
    cases hmissing
  · cases h
  · rename_i here hlocate
    obtain ⟨-, rfl⟩ := locate_ok hlocate
    split at h
    · rename_i hnone
      cases h
      exact ⟨.refl _ _, .inl (by rw [file?, hnone])⟩
    · rename_i bytes hfile
      cases h
      have hdir : ¬ t.HasDirectory p.place := fun hdir => by
        rw [hdir] at hfile
        cases hfile
      refine ⟨keeps_erase hfile, .inl ?_⟩
      rw [file?, entry_erase, if_pos ⟨rfl, ne_nil_of_not_hasDirectory hdir⟩]
    · cases h

theorem makeDirectory_spec (h : t.perform? (.makeDirectory p) = some t') : Keeps [] t t' := by
  simp only [perform?] at h
  split at h
  · cases h
  · rename_i here hlocate
    obtain ⟨-, rfl⟩ := locate_ok hlocate
    split at h
    · rename_i hnone
      cases h
      have hdir : ¬ t.HasDirectory p.place := fun hdir => by
        rw [hdir] at hnone
        cases hnone
      refine ⟨fun q _ => ?_, (keeps_put hdir _).directories⟩
      by_cases hq : q = p.place
      · rw [hq, file?, file?, hnone, entry_put _ (ne_nil_of_not_hasDirectory hdir), if_pos rfl]
      · exact (keeps_put hdir _).files q (by simpa using hq)
    · cases h
      exact .refl _ _
    · cases h

theorem write_spec {bytes : ByteArray} (h : t.perform? (.write p bytes) = some t') :
    Keeps [p.place] t t' ∧ t'.file? p.place = some bytes := by
  simp only [perform?] at h
  split at h
  · rename_i here hlocate
    obtain ⟨-, rfl⟩ := locate_ok hlocate
    exact putFile?_spec h
  · cases h

/-- A file that has taken the place of another one is there as it was, and its path leads there. -/
theorem rename_spec {source target : Path} (h : t.perform? (.rename source target) = some t') :
    Keeps [source.place, target.place] t t' ∧ t'.file? target.place = t.file? source.place ∧
      (t.file? source.place).isSome ∧ t'.fault? target = none := by
  simp only [perform?] at h
  split at h
  · rename_i here there hsource htarget
    obtain ⟨-, rfl⟩ := locate_ok hsource
    obtain ⟨hfault, rfl⟩ := locate_ok htarget
    split at h
    · rename_i bytes hfile
      obtain ⟨hput, hthere⟩ := putFile?_spec h
      have hkeeps : Keeps [source.place, target.place] t t' :=
        ((keeps_erase hfile).mono (by simp)).trans (hput.mono (by simp))
      rw [file?_eq_some.mpr hfile]
      exact ⟨hkeeps, hthere, rfl, hkeeps.fault? hfault⟩
    · cases h
  · cases h

/-! ### Several steps -/

theorem performAll_append (t : FileTree) (first second : List FileStep) :
    t.performAll (first ++ second) =
      match t.performAll first with
      | (true, t) => t.performAll second
      | (false, t) => (false, t) := by
  induction first generalizing t with
  | nil => rfl
  | cons step rest ih =>
      simp only [List.cons_append, performAll]
      cases t.perform? step with
      | none => rfl
      | some t => exact ih t

theorem performAll_append_ok {first second : List FileStep}
    (h : t.performAll (first ++ second) = (true, t')) :
    ∃ t₁, t.performAll first = (true, t₁) ∧ t₁.performAll second = (true, t') := by
  rw [performAll_append] at h
  split at h
  · exact ⟨_, ‹_›, h⟩
  · cases h

theorem performAll_cons_ok {step : FileStep} {rest : List FileStep}
    (h : t.performAll (step :: rest) = (true, t')) :
    ∃ t₁, t.perform? step = some t₁ ∧ t₁.performAll rest = (true, t') := by
  unfold performAll at h
  split at h
  · exact ⟨_, ‹_›, h⟩
  · cases h

theorem makeDirectories_spec {paths : List Path}
    (h : t.performAll (paths.map .makeDirectory) = (true, t')) : Keeps [] t t' := by
  induction paths generalizing t with
  | nil =>
      cases h
      exact .refl _ _
  | cons path rest ih =>
      obtain ⟨t₁, hfirst, hrest⟩ := performAll_cons_ok h
      exact (makeDirectory_spec hfirst).trans (ih hrest)

end FileTree

/-! ### What the files hold has no part in it -/

/-- What stands at a place, with nothing in it. -/
def FileEntry.blank : FileEntry → FileEntry
  | file _ => file .empty
  | directory => directory

/-- The step with nothing to write. -/
def FileStep.blank : FileStep → FileStep
  | write p _ => write p .empty
  | step => step

namespace FileTree

/-- The tree with nothing in its files. -/
def blank (t : FileTree) : FileTree :=
  ⟨t.entries.map fun e => (e.1, e.2.blank)⟩

variable (t : FileTree) (here : Place)

theorem entry_blank : t.blank.entry? here = (t.entry? here).map .blank := by
  unfold entry?
  split
  · rfl
  · rw [blank]
    induction t.entries with
    | nil => rfl
    | cons e rest ih =>
        rw [List.map_cons, List.lookup_cons, List.lookup_cons]
        cases here == e.1
        · exact ih
        · rfl

/-- Paths lead through directories, which hold nothing. -/
theorem faultAlong?_blank (names : List String) :
    t.blank.faultAlong? here names = t.faultAlong? here names := by
  induction names generalizing here with
  | nil => rfl
  | cons name rest ih =>
      unfold faultAlong?
      rw [entry_blank]
      cases t.entry? here with
      | none => rfl
      | some e =>
          cases e with
          | file bytes => rfl
          | directory => simp only [Option.map_some, FileEntry.blank, ih]

theorem locate_blank (p : Path) : t.blank.locate p = t.locate p := by
  unfold locate fault?
  rw [faultAlong?_blank]

theorem erase_blank : (t.erase here).blank = t.blank.erase here := by
  simp only [erase, blank, List.filter_map]
  rfl

theorem put_blank (e : FileEntry) : (t.put here e).blank = t.blank.put here e.blank := by
  have h := congrArg entries (erase_blank t here)
  simp only [put, blank, List.map_cons] at h ⊢
  rw [h]

theorem putFile?_blank (bytes : ByteArray) :
    t.blank.putFile? here .empty = (t.putFile? here bytes).map blank := by
  unfold putFile?
  rw [entry_blank]
  split
  · rename_i h
    obtain ⟨e, he, hblank⟩ := Option.map_eq_some_iff.mp h
    cases e with
    | file => cases hblank
    | directory => rw [he]; rfl
  · rename_i h
    split
    · rename_i he
      exact absurd (by rw [he]; rfl) h
    · exact congrArg some (put_blank t here (.file bytes)).symm

/-- **A step does the same, whatever the files hold.** -/
theorem perform?_blank (s : FileStep) : t.blank.perform? s.blank = (t.perform? s).map blank := by
  cases s with
  | remove p =>
      simp only [FileStep.blank, perform?, locate_blank]
      cases t.locate p with
      | error fault => cases fault <;> rfl
      | ok here =>
          simp only [entry_blank]
          cases t.entry? here with
          | none => rfl
          | some e =>
              cases e with
              | file bytes => exact congrArg some (erase_blank t here).symm
              | directory => rfl
  | makeDirectory p =>
      simp only [FileStep.blank, perform?, locate_blank]
      cases t.locate p with
      | error fault => rfl
      | ok here =>
          simp only [entry_blank]
          cases t.entry? here with
          | none => exact congrArg some (put_blank t here .directory).symm
          | some e => cases e <;> rfl
  | write p bytes =>
      simp only [FileStep.blank, perform?, locate_blank]
      cases t.locate p with
      | error fault => rfl
      | ok here => exact putFile?_blank t here bytes
  | rename source target =>
      simp only [FileStep.blank, perform?, locate_blank]
      cases t.locate source with
      | error fault => rfl
      | ok here =>
          cases t.locate target with
          | error fault => rfl
          | ok there =>
              simp only [entry_blank]
              cases t.entry? here with
              | none => rfl
              | some e =>
                  cases e with
                  | directory => rfl
                  | file bytes =>
                      have h := putFile?_blank (t.erase here) there bytes
                      rwa [erase_blank] at h

theorem performAll_blank (steps : List FileStep) :
    t.blank.performAll (steps.map .blank) =
      ((t.performAll steps).1, (t.performAll steps).2.blank) := by
  induction steps generalizing t with
  | nil => rfl
  | cons s rest ih =>
      simp only [List.map_cons, performAll, perform?_blank]
      cases t.perform? s with
      | none => rfl
      | some t₁ => exact ih t₁

end FileTree

end TrafficWatch
