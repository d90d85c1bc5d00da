import Mathlib.Data.List.Nodup
import TrafficWatch.Files.ModelStore

/-!
# Files — Path

The names that a path written as text is made of.  A slash between two texts keeps their names apart
(`Path.names_slash`), so a file below a directory has the names of the directory and its own
(`Path.names_join`), however the directory is written.  A name with more letters at its end stands
beside the one without them (`Path.place_withEnding`).

A model is kept well only when the three files and the drafts of them do not stand in each other's
way. `ModelPaths.Apart` says so, and `ModelPaths.apart_inDirectory` that the usual file names do
not, whatever the directory.
-/

namespace TrafficWatch

namespace Path

theorem names_slash (a b : String) :
    (parse (a ++ "/" ++ b)).names = (parse a).names ++ (parse b).names := by
  have hsplit : (a ++ "/" ++ b).toList.splitOn '/' =
      a.toList.splitOn '/' ++ b.toList.splitOn '/' := by
    rw [String.toList_append, String.toList_append, List.append_assoc]
    exact List.splitOnP_append_cons _ _ rfl
  simp only [parse, hsplit, List.map_append, List.filter_append]

theorem names_empty : (parse "").names = [] := rfl

theorem names_of_endsWith {directory : String} (h : directory.endsWith "/") (file : String) :
    (parse (directory ++ file)).names = (parse directory).names ++ (parse file).names := by
  obtain ⟨front, hfront⟩ := String.Slice.endsWith_string_iff.mp h
  rw [String.copy_toSlice] at hfront
  obtain rfl : directory = String.ofList front ++ "/" := by
    rw [← String.toList_inj, ← hfront, String.toList_append]
    exact congrArg (· ++ _) String.toList_ofList.symm
  have hfront := names_slash (String.ofList front) ""
  rw [String.append_empty, names_empty, List.append_nil] at hfront
  rw [names_slash, hfront]

/-- **The names of a file below a directory.** -/
theorem names_join (directory : String) {file : String} (hfile : ¬ "/".toList <+: file.toList) :
    (parse (join directory file)).names = (parse directory).names ++ (parse file).names := by
  unfold join
  rw [if_neg (mt String.startsWith_string_iff.mp hfile)]
  split
  · rename_i h
    rcases Bool.or_eq_true_iff.mp h with h | h
    · rw [String.isEmpty_iff.mp h, String.empty_append, names_empty, List.nil_append]
    · exact names_of_endsWith h file
  · exact names_slash directory file

/-! ### Where a file stands -/

/-- A name that can be given to a file. -/
structure IsFileName (file : String) : Prop where
  relative : ¬ "/".toList <+: file.toList
  single : (parse file).names = [file]
  proper : file ≠ ".."

theorem names_file {file : String} (h : IsFileName file) (directory : String) :
    (parse (join directory file)).names = (parse directory).names ++ [file] := by
  rw [names_join directory h.relative, h.single]

theorem place_snoc (names : List String) {name : String} (h : name ≠ "..") (isUsable : Bool) :
    (Path.mk (names ++ [name]) isUsable).place = names.foldl Place.enter [] ++ [name] := by
  rw [place, List.foldl_append]
  exact if_neg h

/-- A file stands below its directory. -/
theorem place_file {file : String} (h : IsFileName file) (directory : String) :
    (parse (join directory file)).place = (parse directory).place ++ [file] := by
  rw [place, names_file h]
  exact place_snoc _ h.proper true

/-- What has the name of a file with more letters at its end stands beside the file. -/
theorem place_withEnding {file ending : String} (h : IsFileName file)
    (hending : file ++ ending ≠ "..")
    (directory : String) :
    ((parse (join directory file)).withEnding ending).place =
      (parse directory).place ++ [file ++ ending] := by
  unfold withEnding
  rw [names_file h, List.getLast?_concat]
  split
  · rename_i hnone
    cases hnone
  · rename_i hup
    exact absurd (Option.some.inj hup) h.proper
  · rename_i hname
    cases hname
    rw [child, parent, names_file h, List.dropLast_concat]
    exact place_snoc _ hending _

end Path

namespace ModelPaths

/-- The place of a file. -/
def finalPlace (path : String) : Place :=
  (Path.parse path).place

/-- The place of the draft of a file. -/
def draftPlace (path : String) : Place :=
  ((Path.parse path).withEnding ".tmp").place

/-- The places of the three files, and those of their drafts. -/
def places (paths : ModelPaths) : List Place :=
  let files := [paths.threshold, paths.model, paths.marker]
  files.map finalPlace ++ files.map draftPlace

/-- No two of the files and drafts stand at the same place. -/
def Apart (paths : ModelPaths) : Prop :=
  paths.places.Nodup

theorem places_inDirectory (directory : String) :
    (inDirectory directory).places =
      ["anomaly_threshold.txt", "anomaly_model.json", "anomaly_fallback.marker",
        "anomaly_threshold.txt.tmp", "anomaly_model.json.tmp", "anomaly_fallback.marker.tmp"].map
          fun name => (Path.parse directory).place ++ [name] := by
  have hmodel : Path.IsFileName "anomaly_model.json" := ⟨by decide, by decide, by decide⟩
  have hthreshold : Path.IsFileName "anomaly_threshold.txt" := ⟨by decide, by decide, by decide⟩
  have hmarker : Path.IsFileName "anomaly_fallback.marker" := ⟨by decide, by decide, by decide⟩
  simp only [places, finalPlace, draftPlace, inDirectory, List.map_cons, List.map_nil,
    List.cons_append, List.nil_append,
    Path.place_file hmodel, Path.place_file hthreshold, Path.place_file hmarker,
    Path.place_withEnding hmodel (show "anomaly_model.json" ++ ".tmp" ≠ ".." by decide),
    Path.place_withEnding hthreshold (show "anomaly_threshold.txt" ++ ".tmp" ≠ ".." by decide),
    Path.place_withEnding hmarker (show "anomaly_fallback.marker" ++ ".tmp" ≠ ".." by decide)]
  rfl

/-- **The usual names keep the files apart**, below any directory. -/
theorem apart_inDirectory (directory : String) : (inDirectory directory).Apart := by
  unfold Apart
  rw [places_inDirectory]
  refine List.Nodup.map (fun a b h => ?_) (by decide)
  simpa using h

variable {paths : ModelPaths}

theorem Apart.threshold (h : paths.Apart) :
    finalPlace paths.threshold ≠ draftPlace paths.threshold ∧
      finalPlace paths.threshold ≠ finalPlace paths.model ∧
      finalPlace paths.threshold ≠ draftPlace paths.model ∧
      finalPlace paths.threshold ≠ finalPlace paths.marker ∧
      finalPlace paths.threshold ≠ draftPlace paths.marker := by
  simp only [Apart, places, List.map_cons, List.map_nil, List.cons_append, List.nil_append,
    List.nodup_cons, List.mem_cons, not_or] at h
  simp only [h, ne_eq, not_false_eq_true, and_self]

theorem Apart.model (h : paths.Apart) :
    finalPlace paths.model ≠ draftPlace paths.model ∧
      finalPlace paths.model ≠ finalPlace paths.threshold ∧
      finalPlace paths.model ≠ draftPlace paths.threshold ∧
      finalPlace paths.model ≠ finalPlace paths.marker ∧
      finalPlace paths.model ≠ draftPlace paths.marker := by
  simp only [Apart, places, List.map_cons, List.map_nil, List.cons_append, List.nil_append,
    List.nodup_cons, List.mem_cons, not_or] at h
  simp only [h, Ne.symm h.1.1, ne_eq, not_false_eq_true, and_self]

theorem Apart.marker (h : paths.Apart) :
    finalPlace paths.marker ≠ draftPlace paths.marker ∧
      finalPlace paths.marker ≠ finalPlace paths.threshold ∧
      finalPlace paths.marker ≠ draftPlace paths.threshold ∧
      finalPlace paths.marker ≠ finalPlace paths.model ∧
      finalPlace paths.marker ≠ draftPlace paths.model := by
  simp only [Apart, places, List.map_cons, List.map_nil, List.cons_append, List.nil_append,
    List.nodup_cons, List.mem_cons, not_or] at h
  simp only [h, Ne.symm h.1.2.1, Ne.symm h.2.1.1, ne_eq, not_false_eq_true, and_self]

end ModelPaths

end TrafficWatch
