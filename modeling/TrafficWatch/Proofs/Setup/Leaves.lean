import TrafficWatch.Proofs.Setup.Layers

/-!
# Setup — Leaves

The single values of a configuration, each of one of a few kinds (`leaves`).  What layers show at a leaf
is read the same as what the last of them sets there, unless it cannot be read at all
(`shows_merged`): a table may gather members that no layer has set together, but then it has too many
for a word, and nothing else is read from a table.
-/

namespace TrafficWatch.Setup

open Node (Covers)

/-- What a single value is. -/
inductive LeafKind where
  | text
  | truth
  | real
  /-- A whole number from zero to below a bound. -/
  | natural (bound : Nat)
  /-- One of several words. -/
  | word (known : List String)

/-- A value of a kind, converted into what a configuration writes for it. -/
def LeafKind.read (r : Reading) : LeafKind → Node → Option Node
  | text, n => (r.text n).map .text
  | truth, n => (r.truth n).map .truth
  | real, n => (r.real n).map .real
  | natural bound, n => (r.naturalBelow bound n).map fun k : Nat => .whole k
  | word known, n => (r.word n).bind fun w => if w ∈ known then some (.text w) else none

/-- A single value of the configuration: the names that lead to it, and its kind. -/
structure Leaf where
  names : List String
  kind : LeafKind

/-- The values about the log. -/
def logLeaves : List (String × LeafKind) := [
  ("level", .text),
  ("dir", .text),
  ("rotation", .word (Rotation.all.map (·.name))),
  ("console", .truth),
  ("file", .truth),
  ("json", .truth)]

/-- A count of errors. -/
def LeafKind.count : LeafKind := natural (twoTo 32)

/-- A number of things or of seconds or minutes. -/
def LeafKind.number : LeafKind := natural (twoTo 64)

/-- The values about detection, without those of its table. -/
def detectionLeaves : List (String × LeafKind) := [
  ("mode", .word (Mode.all.map (·.name))),
  ("rps_threshold", .real),
  ("four_xx_threshold", .count),
  ("five_xx_threshold", .count),
  ("waf_threshold", .count),
  ("ua_entropy_threshold", .real),
  ("rps_window_secs", .number),
  ("error_window_secs", .number),
  ("window_ttl_secs", .number),
  ("prune_interval_secs", .number),
  ("feature_queue_capacity", .number),
  ("algorithm", .word (Algorithm.all.map (·.name))),
  ("pca_rank", .number),
  ("baseline_sample_size", .number),
  ("baseline_hard_cap", .number),
  ("training_window_minutes", .number),
  ("retrain_interval_minutes", .number),
  ("score_quantile", .real),
  ("min_samples_guard", .number),
  ("min_variance_guard", .real),
  ("scorer_pool_size", .number),
  ("retrain_shutdown_grace_secs", .number)]

/-- The paths of the files in which models are kept. -/
def pathLeaves : List (String × LeafKind) := [
  ("model_path", .text),
  ("threshold_path", .text),
  ("fallback_marker_path", .text)]

/-- All single values of the configuration. -/
def leaves : List Leaf :=
  logLeaves.map (fun (name, kind) => ⟨["log", name], kind⟩) ++
  detectionLeaves.map (fun (name, kind) => ⟨["detection", name], kind⟩) ++
  pathLeaves.map (fun (name, kind) => ⟨["detection", "persistence", name], kind⟩)

/-! ### What is read where layers cover each other -/

namespace LeafKind

variable (kind : LeafKind) {ms : List (String × Node)} {t lower r : Node}

theorem read_absent : kind.read .free .absent = none := by
  cases kind <;> rfl

theorem read_list (ns : List Node) : kind.read .free (.list ns) = none := by
  cases kind <;> rfl

/-- From a table only a word is read, which is the name of its only member. -/
theorem read_table (h : ∀ name n, ms ≠ [(name, n)]) : kind.read .free (.table ms) = none := by
  cases kind with
  | word known =>
      match ms, h with
      | [], _ => rfl
      | [(name, n)], h => exact absurd rfl (h name n)
      | _ :: _ :: _, _ => rfl
  | _ => rfl

theorem read_singleton (name : String) (n m : Node) :
    kind.read .free (.table [(name, n)]) = kind.read .free (.table [(name, m)]) := by
  cases kind <;> rfl

/-- What covers can be read only as what is covered with. -/
theorem read_covers (h : Covers t lower r) (ht : t ≠ .table []) :
    kind.read .free r = none ∨ kind.read .free r = kind.read .free t := by
  cases h with
  | whole => exact .inr rfl
  | list => exact .inl (kind.read_list _)
  | @table ms rs _ covered names _ _ found =>
      by_cases hsingle : ∃ name n, rs = [(name, n)]
      · obtain ⟨name, n, rfl⟩ := hsingle
        -- every member of the upper table is there still, under its name
        have hname (m : String × Node) (hm : m ∈ ms) : m.1 = name := by
          cases hlookup : ms.lookup m.1 with
          | none => exact absurd (List.mem_map_of_mem hm) (lookup_eq_none_iff.mp hlookup)
          | some t => exact (of_lookup_singleton (found m.1 t hlookup)).1
        match ms, ht, names, hname with
        | [], ht, _, _ => exact absurd rfl ht
        | [(other, t)], _, _, hname =>
            obtain rfl : other = name := hname _ List.mem_cons_self
            exact .inr (kind.read_singleton _ _ _)
        | first :: second :: rest, _, names, hname =>
            refine absurd ?_ (List.nodup_cons.mp names).1
            rw [hname first List.mem_cons_self, ← hname second (.tail _ List.mem_cons_self)]
            exact List.mem_cons_self
      · exact .inl (kind.read_table fun name n h => hsingle ⟨name, n, h⟩)

/-- A table without members changes nothing that can be read. -/
theorem read_covers_empty (h : Covers (.table []) lower r) :
    kind.read .free r = none ∨ r = lower := by
  cases h with
  | whole h => exact absurd rfl (h [])
  | table _ _ empty =>
      rw [empty rfl]
      cases lower with
      | table ms => exact .inr rfl
      | _ => exact .inl (kind.read_table nofun)

end LeafKind

/-! ### The last layer that sets a leaf -/

/-- What the last of several trees sets at the end of names. -/
def lastSet? (names : List String) (trees : List Node) : Option Node :=
  (trees.filterMap (Node.set? names)).getLast?

theorem lastSet?_snoc (names : List String) (trees : List Node) (t : Node) :
    lastSet? names (trees ++ [t]) = (t.set? names).or (lastSet? names trees) := by
  rw [lastSet?, List.filterMap_append, List.filterMap_cons, List.filterMap_nil]
  cases t.set? names with
  | none => rw [List.append_nil]; rfl
  | some n => rw [List.getLast?_concat]; rfl

/-- What there is cannot be read, or it is read as what was set. -/
def LeafKind.Shows (kind : LeafKind) (entry now : Option Node) : Prop :=
  (∃ n, now = some n ∧ kind.read .free n = none) ∨
    now.map (kind.read .free) = entry.map (kind.read .free)

section Run

variable {kind : LeafKind} {names : List String} {entry : Option Node} {l : Layer} {lower : Node}

/-- One layer more. -/
theorem LeafKind.Shows.over (h : kind.Shows entry (lower.at? names)) (hl : l.IsLawful)
    (hleads : l.tree.Leads names) :
    kind.Shows ((l.tree.set? names).or entry) ((l.over lower).at? names) := by
  rcases (hl.covers lower).at? hleads with ⟨hnone, hsame⟩ | ⟨n, m, hn, hm, hcovers⟩
  · rw [Node.set?, hnone, hsame]
    exact h
  · cases hset : l.tree.set? names with
    | some v =>
        obtain ⟨hv, hne⟩ := Node.set?_eq_some hset
        obtain rfl : n = v := Option.some.inj (hn.symm.trans hv)
        rw [hm]
        rcases kind.read_covers hcovers hne with hread | hread
        · exact .inl ⟨m, rfl, hread⟩
        · exact .inr (congrArg some hread)
    | none =>
        have hempty : n = .table [] := by
          rcases Node.set?_eq_none hset with h | h
          · rw [hn] at h; cases h
          · exact Option.some.inj (hn.symm.trans h)
        rw [hm]
        rcases kind.read_covers_empty (hempty ▸ hcovers) with hread | rfl
        · exact .inl ⟨m, rfl, hread⟩
        · cases hlower : lower.at? names with
          | some below => rwa [hlower] at h
          | none => exact .inl ⟨.absent, rfl, kind.read_absent⟩

end Run

/-- **What a run of layers shows.** -/
theorem LeafKind.Shows.overAll {kind : LeafKind} {names : List String} {layers : List Layer}
    (hlayers : ∀ l ∈ layers, l.IsLawful ∧ l.tree.Leads names) {trees : List Node} {lower : Node}
    (h : kind.Shows (lastSet? names trees) (lower.at? names)) :
    kind.Shows (lastSet? names (trees ++ layers.map Layer.tree))
      ((layers.foldl (fun lower l => l.over lower) lower).at? names) := by
  induction layers generalizing trees lower with
  | nil => rwa [List.map_nil, List.append_nil]
  | cons l rest ih =>
      obtain ⟨hl, hleads⟩ := hlayers l List.mem_cons_self
      rw [List.map_cons, List.append_cons, List.foldl_cons]
      refine ih (fun l hl => hlayers l (List.mem_cons_of_mem _ hl)) ?_
      rw [lastSet?_snoc]
      exact h.over hl hleads

/-- A leaf stands in one of the tables of the configuration. -/
theorem names_of_mem_leaves {leaf : Leaf} (h : leaf ∈ leaves) :
    ∃ above ∈ Node.tables, ∃ name, leaf.names = above ++ [name] := by
  rw [leaves, List.mem_append, List.mem_append] at h
  rcases h with (h | h) | h <;> obtain ⟨⟨name, kind⟩, -, rfl⟩ := List.mem_map.mp h
  · exact ⟨["log"], List.mem_cons_self, name, rfl⟩
  · exact ⟨["detection"], .tail _ List.mem_cons_self, name, rfl⟩
  · exact ⟨["detection", "persistence"], .tail _ (.tail _ List.mem_cons_self), name, rfl⟩

variable {processors : Nat}

/-- Whatever usual value there is for a leaf is set. -/
theorem set?_usual {leaf : Leaf} (h : leaf ∈ leaves) :
    (usual processors).toNode.set? leaf.names = (usual processors).toNode.at? leaf.names := by
  revert leaf
  simp only [leaves, logLeaves, detectionLeaves, pathLeaves, List.map_cons, List.map_nil,
    List.cons_append, List.nil_append, List.forall_mem_cons]
  repeat' refine And.intro rfl ?_
  exact nofun

/-- **What all layers show.** -/
theorem shows_merged {leaf : Leaf} (h : leaf ∈ leaves) {layers : List Layer}
    (hlayers : ∀ l ∈ layers, l.IsLawful ∧ l.tree.KeepsTables) :
    leaf.kind.Shows (lastSet? leaf.names ((usual processors).toNode :: layers.map Layer.tree))
      ((merged processors layers).at? leaf.names) := by
  change leaf.kind.Shows (lastSet? leaf.names ([(usual processors).toNode] ++ layers.map Layer.tree)) _
  refine LeafKind.Shows.overAll (fun l hl => ?_) ?_
  · obtain ⟨hlawful, hkeeps⟩ := hlayers l hl
    obtain ⟨above, habove, name, hname⟩ := names_of_mem_leaves h
    exact ⟨hlawful, hname ▸ hkeeps.leads hlawful.isTable_tree habove name⟩
  · rw [lastSet?, List.filterMap_cons, List.filterMap_nil, set?_usual h]
    cases (usual processors).toNode.at? leaf.names <;> exact .inr rfl

end TrafficWatch.Setup
