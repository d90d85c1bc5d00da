import TrafficWatch.Proofs.Setup.Leaves

/-!
# Setup — Reading

A configuration that has been read holds what stands at its leaves.  A field of a record writes one
name and leaves the others as they are (`Writes`), so of a record that is read by name every member is
the conversion of what the table has under its name (`readNamed_spec`).
-/

namespace TrafficWatch

namespace Setup

section Records

variable {ρ α : Type} {view : ρ → String → Option Node} {name : String}

/-- A change of a record sets one name and no other. -/
def Sets (view : ρ → String → Option Node) (name : String) (encode : α → Node) (update : α → ρ → ρ) :
    Prop :=
  ∀ a d k, view (update a d) k = if k = name then some (encode a) else view d k

theorem sets_of_members {toNode : ρ → Node} {encode : α → Node} {update : α → ρ → ρ}
    (h : ∀ a d, (toNode (update a d)).members = putMember name (encode a) (toNode d).members) :
    Sets (fun d k => (toNode d).member? k) name encode update := by
  intro a d k
  change (toNode (update a d)).members.lookup k = if k = name then _ else (toNode d).members.lookup k
  rw [h, lookup_putMember]

/-- A field converts what it is given and writes it under its name. -/
structure Writes (view : ρ → String → Option Node) (field : String × (Node → Option Node))
    (slot : Slot ρ) : Prop where
  name_eq : slot.1 = field.1
  writes : ∀ {n d d'}, slot.2 n d = some d' →
    ∃ v, field.2 n = some v ∧ ∀ k, view d' k = if k = field.1 then some v else view d k

theorem Sets.writes {encode : α → Node} {update : α → ρ → ρ} (h : Sets view name encode update)
    (convert : Node → Option α) :
    Writes view (name, fun n => (convert n).map encode)
      (name, fun n d => do return update (← convert n) d) where
  name_eq := rfl
  writes := by
    intro n d d' hread
    obtain ⟨a, ha, hupdate⟩ := Option.bind_eq_some_iff.mp hread
    cases hupdate
    exact ⟨encode a, congrArg (Option.map encode) ha, h a d⟩

/-- The first of several things that has a name, as the name, if there is one. -/
theorem map_find?_name (things : List α) (word : α → String) (w : String) :
    (things.find? (word · == w)).map (fun a => Node.text (word a)) =
      if w ∈ things.map word then some (.text w) else none := by
  cases hfind : things.find? (word · == w) with
  | some a =>
      have hsome := List.find?_some hfind
      have ha : word a = w := eq_of_beq hsome
      rw [if_pos (List.mem_map.mpr ⟨a, List.mem_of_find?_eq_some hfind, ha⟩), Option.map_some, ha]
  | none =>
      rw [if_neg, Option.map_none]
      intro hmem
      obtain ⟨a, ha, hname⟩ := List.mem_map.mp hmem
      exact List.find?_eq_none.mp hfind a ha (beq_iff_eq.mpr hname)

/-- A word is read as the first of several things that has it for a name. -/
theorem Sets.writes_word {things : List α} {word : α → String} {update : α → ρ → ρ}
    (h : Sets view name (fun a => .text (word a)) update) (r : Reading) :
    Writes view (name, (LeafKind.word (things.map word)).read r)
      (name, fun n d => do return update (← (r.word n).bind fun w => things.find? (word · == w)) d) := by
  have hwrites := h.writes fun n => (r.word n).bind fun w => things.find? (word · == w)
  have hread : (LeafKind.word (things.map word)).read r = fun n =>
      ((r.word n).bind fun w => things.find? (word · == w)).map fun a => .text (word a) := by
    funext n
    rw [Option.map_bind]
    exact congrArg (r.word n).bind (funext fun w => (map_find?_name things word w).symm)
  rwa [hread]

/-- **A record that is read by name.** -/
theorem readNamed_spec {fields : List (String × (Node → Option Node))} {slots : List (Slot ρ)}
    (h : List.Forall₂ (Writes view) fields slots) (hnames : (fields.map Prod.fst).Nodup)
    {members : List (String × Node)} {d d' : ρ} (hread : readNamed members slots d = some d') :
    (∀ k, k ∉ fields.map Prod.fst ∨ members.lookup k = none → view d' k = view d k) ∧
      ∀ field ∈ fields, ∀ n, members.lookup field.1 = some n →
        ∃ v, field.2 n = some v ∧ view d' field.1 = some v := by
  induction h generalizing d with
  | nil =>
      cases hread
      exact ⟨fun _ _ => rfl, nofun⟩
  | @cons field slot fields slots hfield _ ih =>
      obtain ⟨name, convert⟩ := field
      obtain ⟨name', read⟩ := slot
      obtain ⟨hname, hwrites⟩ := hfield
      dsimp only at hname hwrites
      subst hname
      rw [List.map_cons, List.nodup_cons] at hnames
      rw [readNamed] at hread
      split at hread
      · next hnone =>
          obtain ⟨hsame, hfound⟩ := ih hnames.2 hread
          refine ⟨fun k hk => hsame k (hk.imp_left fun h hmem => h (List.mem_cons_of_mem _ hmem)), ?_⟩
          intro field hmem n hn
          rcases List.mem_cons.mp hmem with rfl | hmem
          · rw [hnone] at hn; cases hn
          · exact hfound field hmem n hn
      · next m hm =>
          obtain ⟨d₁, hd₁, hrest⟩ := Option.bind_eq_some_iff.mp hread
          obtain ⟨v, hv, hview⟩ := hwrites hd₁
          obtain ⟨hsame, hfound⟩ := ih hnames.2 hrest
          refine ⟨fun k hk => ?_, fun field hmem n hn => ?_⟩
          · have hk' : k ≠ name' := by
              rintro rfl
              rcases hk with hk | hk
              · exact hk List.mem_cons_self
              · rw [hm] at hk; cases hk
            rw [hsame k (hk.imp_left fun h hmem => h (List.mem_cons_of_mem _ hmem)), hview,
              if_neg hk']
          · rcases List.mem_cons.mp hmem with rfl | hmem
            · obtain rfl : m = n := Option.some.inj (hm.symm.trans hn)
              exact ⟨v, hv, by rw [hsame _ (.inl hnames.1), hview, if_pos rfl]⟩
            · exact hfound field hmem n hn

/-- The values of several kinds as fields. -/
def fieldsOf (r : Reading) (leaves : List (String × LeafKind)) : List (String × (Node → Option Node)) :=
  leaves.map fun leaf => (leaf.1, leaf.2.read r)

theorem names_fieldsOf (r : Reading) (leaves : List (String × LeafKind)) :
    (fieldsOf r leaves).map Prod.fst = leaves.map Prod.fst := by
  rw [fieldsOf, List.map_map]
  rfl

end Records

end Setup

open Setup (Reading Node Sets Writes LeafKind fieldsOf sets_of_members)

/-- What settings have under a name. -/
abbrev LogSettings.view (s : LogSettings) (name : String) : Option Node :=
  s.toNode.member? name

theorem LogSettings.writes_fields (r : Reading) :
    List.Forall₂ (Writes view) (fieldsOf r Setup.logLeaves) (fields r) := by
  refine .cons ?level (.cons ?dir (.cons ?rotation (.cons ?console (.cons ?file (.cons ?json .nil)))))
  case rotation => exact (sets_of_members fun _ _ => rfl).writes_word r
  all_goals exact (sets_of_members fun _ _ => rfl).writes _

namespace ModelPaths

/-- What paths that are being read have under a name. -/
def draftView (d : PathsDraft) (name : String) : Option Node :=
  if name = "model_path" then d.model.map .text
  else if name = "threshold_path" then d.threshold.map .text
  else if name = "fallback_marker_path" then d.marker.map .text
  else none

theorem writes_fields (r : Reading) :
    List.Forall₂ (Writes draftView) (fieldsOf r Setup.pathLeaves) (PathsDraft.fields r) := by
  refine .cons ?model (.cons ?threshold (.cons ?marker .nil))
  all_goals
    refine Sets.writes (fun path d name => ?_) _
    simp only [draftView]
    split_ifs <;> simp_all

end ModelPaths

namespace Settings

/-- What settings have under a name. -/
abbrev view (s : Settings) (name : String) : Option Node :=
  s.toNode.member? name

/-- The table of the paths, if there are any. -/
def pathsNode : Option ModelPaths → Node
  | some p => p.toNode
  | none => .absent

/-- The values about detection and the table of the paths. -/
def fieldsWithPaths (r : Reading) : List (String × (Node → Option Node)) :=
  fieldsOf r Setup.detectionLeaves ++
    [("persistence", fun n => (ModelPaths.optionOfNode r n).map pathsNode)]

theorem nodup_fieldsWithPaths {r : Reading} : ((fieldsWithPaths r).map Prod.fst).Nodup := by
  have hnames : (Setup.detectionLeaves.map Prod.fst ++ ["persistence"]).Nodup := by decide
  rwa [fieldsWithPaths, List.map_append, Setup.names_fieldsOf]

theorem writes_fields (r : Reading) :
    List.Forall₂ (Writes view) (fieldsWithPaths r) (fields r) := by
  repeat' refine List.Forall₂.cons ?_ ?_
  all_goals
    first
    | exact .nil
    | exact (sets_of_members fun _ _ => rfl).writes _
    | exact (sets_of_members fun _ _ => rfl).writes_word r

end Settings

/-! ### Records that have been read -/

section Read

variable {r : Reading} {ms : List (String × Node)} {name : String} {n : Node}

/-- A value about the log is what stands under its name. -/
theorem LogSettings.view_of_ofNode {s : LogSettings} {kind : LeafKind}
    (h : LogSettings.ofNode r (.table ms) = some s) (hleaf : (name, kind) ∈ Setup.logLeaves)
    (hn : ms.lookup name = some n) : ∃ v, kind.read r n = some v ∧ s.view name = some v :=
  (Setup.readNamed_spec (LogSettings.writes_fields r) (by rw [Setup.names_fieldsOf]; decide) h).2 _
    (List.mem_map_of_mem hleaf) n hn

/-- A value about detection is what stands under its name. -/
theorem Settings.view_of_ofNode {processors : Nat} {s : Settings}
    {field : String × (Node → Option Node)} (h : Settings.ofNode processors r (.table ms) = some s)
    (hfield : field ∈ Settings.fieldsWithPaths r) (hn : ms.lookup field.1 = some n) :
    ∃ v, field.2 n = some v ∧ s.view field.1 = some v :=
  (Setup.readNamed_spec (Settings.writes_fields r) Settings.nodup_fieldsWithPaths h).2 field hfield n hn

/-- Every path is what stands under its name, where there is something. -/
theorem ModelPaths.view_of_ofNode {p : ModelPaths} {kind : LeafKind}
    (h : ModelPaths.ofNode r (.table ms) = some p) (hleaf : (name, kind) ∈ Setup.pathLeaves) :
    ∃ n v, ms.lookup name = some n ∧ kind.read r n = some v ∧ p.toNode.member? name = some v := by
  obtain ⟨d, hread, h⟩ := Option.bind_eq_some_iff.mp h
  obtain ⟨model, hmodel, h⟩ := Option.bind_eq_some_iff.mp h
  obtain ⟨threshold, hthreshold, h⟩ := Option.bind_eq_some_iff.mp h
  obtain ⟨marker, hmarker, h⟩ := Option.bind_eq_some_iff.mp h
  cases h
  have hview : ∃ v, draftView d name = some v ∧ draftView {} name = none ∧
      (ModelPaths.toNode ⟨model, threshold, marker⟩).member? name = some v := by
    simp only [Setup.pathLeaves, List.mem_cons, Prod.mk.injEq, List.not_mem_nil, or_false] at hleaf
    rcases hleaf with ⟨rfl, -⟩ | ⟨rfl, -⟩ | ⟨rfl, -⟩
    · exact ⟨.text model, by rw [draftView, if_pos rfl, hmodel]; rfl, rfl, rfl⟩
    · exact ⟨.text threshold, by simp [draftView, hthreshold], rfl, rfl⟩
    · exact ⟨.text marker, by simp [draftView, hmarker], rfl, rfl⟩
  obtain ⟨v, hv, husual, hmember⟩ := hview
  obtain ⟨hsame, hfound⟩ := Setup.readNamed_spec (writes_fields r)
    (by rw [Setup.names_fieldsOf]; decide) hread
  cases hn : ms.lookup name with
  | none =>
      -- what is missing is missing in the end, too
      rw [hsame name (.inr hn), husual] at hv
      cases hv
  | some n =>
      obtain ⟨v', hconvert, hv'⟩ := hfound _ (List.mem_map_of_mem hleaf) n hn
      obtain rfl : v' = v := Option.some.inj (hv'.symm.trans hv)
      exact ⟨n, v', rfl, hconvert, hmember⟩

end Read

namespace Setup

/-- What a configuration has under a name. -/
abbrev view (c : Setup) (name : String) : Option Node :=
  c.toNode.member? name

/-- The two parts of a configuration. -/
def parts (processors : Nat) (r : Reading) : List (String × (Node → Option Node)) := [
  ("log", fun n => (LogSettings.ofNode r n).map LogSettings.toNode),
  ("detection", fun n => (Settings.ofNode processors r n).map Settings.toNode)]

theorem writes_fields (processors : Nat) (r : Reading) :
    List.Forall₂ (Writes view) (parts processors r) (fields processors r) := by
  refine .cons ?log (.cons ?detection .nil)
  all_goals exact (sets_of_members fun _ _ => rfl).writes _

namespace Node

/-- What a tree leads to is under the names on the way. -/
theorem exists_of_at?_cons {k : String} {names : List String} {n m : Node}
    (h : n.at? (k :: names) = some m) :
    ∃ ms below, n = .table ms ∧ ms.lookup k = some below ∧ below.at? names = some m := by
  rw [at?_cons] at h
  obtain ⟨below, hbelow, hm⟩ := Option.bind_eq_some_iff.mp h
  cases n with
  | table ms => exact ⟨ms, below, rfl, hbelow, hm⟩
  | _ => cases hbelow

/-- There is something for every value that has a usual one, and the paths are missing or in a table. -/
structure IsComplete (n : Node) : Prop where
  log : ∀ leaf ∈ logLeaves, (n.at? ["log", leaf.1]).isSome
  detection : ∀ leaf ∈ detectionLeaves, (n.at? ["detection", leaf.1]).isSome
  persistence : ∃ paths, n.at? ["detection", "persistence"] = some paths ∧
    (paths = .absent ∨ paths.IsTable)

theorem isComplete_usual (processors : Nat) : (Setup.usual processors).toNode.IsComplete where
  log := List.all_eq_true.mp rfl
  detection := List.all_eq_true.mp rfl
  persistence := ⟨.absent, rfl, .inl rfl⟩

/-- A layer takes nothing away. -/
theorem IsComplete.over {n : Node} (h : n.IsComplete) {l : Layer} (hl : l.IsLawful)
    (hkeeps : l.tree.KeepsTables) : (l.over n).IsComplete := by
  have hleads (above : List String) (habove : above ∈ tables) (name : String) :
      l.tree.Leads (above ++ [name]) :=
    hkeeps.leads hl.isTable_tree habove name
  have hstays {names : List String} (hnames : l.tree.Leads names) (hsome : (n.at? names).isSome) :
      ((l.over n).at? names).isSome := by
    rcases (hl.covers n).at? hnames with ⟨-, hsame⟩ | ⟨-, m, -, hm, -⟩
    · rwa [hsame]
    · rw [hm]; rfl
  refine ⟨fun leaf hleaf => ?_, fun leaf hleaf => ?_, ?_⟩
  · exact hstays (hleads ["log"] (by decide) leaf.1) (h.log leaf hleaf)
  · exact hstays (hleads ["detection"] (by decide) leaf.1) (h.detection leaf hleaf)
  · obtain ⟨paths, hpaths, htable⟩ := h.persistence
    rcases (hl.covers n).at? (hleads ["detection"] (by decide) "persistence") with
      ⟨-, hsame⟩ | ⟨t, m, ht, hm, hcovers⟩
    · exact ⟨paths, hsame.trans hpaths, htable⟩
    · exact ⟨m, hm, .inr (hcovers.isTable (hkeeps _ (by decide) t ht))⟩

/-- Nothing is missing under any layers. -/
theorem isComplete_merged {processors : Nat} {layers : List Layer}
    (hlayers : ∀ l ∈ layers, l.IsLawful ∧ l.tree.KeepsTables) :
    (merged processors layers).IsComplete := by
  have hall : ∀ (lower : Node), lower.IsComplete →
      (layers.foldl (fun lower l => l.over lower) lower).IsComplete := by
    induction layers with
    | nil => exact fun _ h => h
    | cons l rest ih =>
        obtain ⟨hl, hkeeps⟩ := hlayers l List.mem_cons_self
        exact fun lower h => ih (fun l hl => hlayers l (List.mem_cons_of_mem _ hl)) _ (h.over hl hkeeps)
  exact hall _ (isComplete_usual processors)

end Node

section Leaf

variable {processors : Nat} {n : Node} {c : Setup} {name : String}

/-- The part of a configuration that is read from the table under its name. -/
theorem part_of_ofNode {ms : List (String × Node)}
    (hread : ofNode processors .free (.table ms) = some c) {part : String × (Node → Option Node)}
    (hpart : part ∈ parts processors .free)
    (hn : ms.lookup part.1 = some n) : ∃ v, part.2 n = some v ∧ c.view part.1 = some v :=
  (readNamed_spec (writes_fields processors .free)
    (by decide : ["log", "detection"].Nodup) hread).2 part hpart n hn

theorem at?_pair (n : Node) (first second : String) :
    n.at? [first, second] = (n.member? first).bind (Node.member? second) := by
  rw [Node.at?_cons]
  refine congrArg _ (funext fun m => ?_)
  rw [Node.at?_cons]
  cases m.member? second <;> rfl

/-- What is read of the log is what the configuration has about it. -/
theorem at?_log (hn : n.IsComplete) (hread : ofNode processors .free n = some c) {kind : LeafKind}
    (hleaf : (name, kind) ∈ logLeaves) :
    (n.at? ["log", name]).map (kind.read .free) = (c.toNode.at? ["log", name]).map some := by
  obtain ⟨m, hm⟩ := Option.isSome_iff_exists.mp (hn.log _ hleaf)
  obtain ⟨ms, log, rfl, hlog, hbelow⟩ := Node.exists_of_at?_cons hm
  obtain ⟨ls, end', rfl, hlast, hend⟩ := Node.exists_of_at?_cons hbelow
  rw [Node.at?_nil] at hend
  cases hend
  obtain ⟨v, hv, hc⟩ := part_of_ofNode hread (List.mem_cons_self) hlog
  obtain ⟨s, hs, rfl⟩ := Option.map_eq_some_iff.mp hv
  obtain ⟨w, hw, hview⟩ := LogSettings.view_of_ofNode hs hleaf hlast
  rw [hm, at?_pair, show c.toNode.member? "log" = _ from hc, Option.map_some, hw]
  exact congrArg (Option.map some) hview.symm

/-- The settings of a configuration that has been read from a complete tree. -/
theorem exists_settings (hn : n.IsComplete) (hread : ofNode processors .free n = some c) :
    ∃ ms, (n.member? "detection") = some (.table ms) ∧
      ∃ s, Settings.ofNode processors .free (.table ms) = some s ∧
        c.toNode.member? "detection" = some s.toNode := by
  obtain ⟨paths, hpaths, -⟩ := hn.persistence
  obtain ⟨ms, detection, rfl, hdetection, hbelow⟩ := Node.exists_of_at?_cons hpaths
  obtain ⟨ds, -, rfl, -, -⟩ := Node.exists_of_at?_cons hbelow
  obtain ⟨v, hv, hc⟩ := part_of_ofNode hread (.tail _ List.mem_cons_self) hdetection
  obtain ⟨s, hs, rfl⟩ := Option.map_eq_some_iff.mp hv
  exact ⟨ds, hdetection, s, hs, hc⟩

/-- What is read of detection is what the configuration has about it. -/
theorem at?_detection (hn : n.IsComplete) (hread : ofNode processors .free n = some c) {kind : LeafKind}
    (hleaf : (name, kind) ∈ detectionLeaves) :
    (n.at? ["detection", name]).map (kind.read .free) =
      (c.toNode.at? ["detection", name]).map some := by
  obtain ⟨m, hm⟩ := Option.isSome_iff_exists.mp (hn.detection _ hleaf)
  obtain ⟨ds, hds, s, hs, hc⟩ := exists_settings hn hread
  rw [at?_pair, hds] at hm
  obtain ⟨w, hw, hview⟩ := Settings.view_of_ofNode hs
    (List.mem_append_left _ (List.mem_map_of_mem hleaf)) hm
  rw [at?_pair, at?_pair, hds, hc]
  change Option.map _ (Node.member? name (.table ds)) = Option.map some (s.view name)
  rw [hview, show Node.member? name (.table ds) = _ from hm]
  exact congrArg some hw

/-- What is read of the paths is what the configuration has about them, if they are there. -/
theorem at?_paths (hn : n.IsComplete) (hread : ofNode processors .free n = some c) {kind : LeafKind}
    (hleaf : (name, kind) ∈ pathLeaves) :
    (n.at? ["detection", "persistence", name]).map (kind.read .free) =
      (c.toNode.at? ["detection", "persistence", name]).map some := by
  obtain ⟨paths, hpaths, htable⟩ := hn.persistence
  obtain ⟨ds, hds, s, hs, hc⟩ := exists_settings hn hread
  rw [at?_pair, hds] at hpaths
  obtain ⟨w, hw, hview⟩ := Settings.view_of_ofNode hs
    (List.mem_append_right _ List.mem_cons_self) hpaths
  obtain ⟨p, hp, rfl⟩ := Option.map_eq_some_iff.mp hw
  have hends (d : Node) (m below : Node) (hm : m.member? "detection" = some d)
      (hbelow : d.member? "persistence" = some below) :
      m.at? ["detection", "persistence", name] = below.member? name := by
    rw [Node.at?_cons, hm]
    exact (at?_pair d _ _).trans (by rw [hbelow]; rfl)
  rw [hends _ _ _ hds hpaths, hends _ _ _ hc hview]
  rcases htable with rfl | ⟨ps, rfl⟩
  · cases hp
    rfl
  · obtain ⟨paths, hpaths, rfl⟩ := Option.map_eq_some_iff.mp hp
    obtain ⟨m, v, hm, hv, hmember⟩ := ModelPaths.view_of_ofNode hpaths hleaf
    rw [show Node.member? name (.table ps) = _ from hm, Settings.pathsNode, hmember]
    exact congrArg some hv

/-- **What is read at a leaf** of a complete tree is what the configuration has there. -/
theorem at?_of_ofNode (hn : n.IsComplete) (hread : ofNode processors .free n = some c) {leaf : Leaf}
    (hleaf : leaf ∈ leaves) :
    (n.at? leaf.names).map (leaf.kind.read .free) = (c.toNode.at? leaf.names).map some := by
  rw [leaves, List.mem_append, List.mem_append] at hleaf
  rcases hleaf with (hleaf | hleaf) | hleaf <;>
    obtain ⟨⟨name, kind⟩, hmem, rfl⟩ := List.mem_map.mp hleaf
  · exact at?_log hn hread hmem
  · exact at?_detection hn hread hmem
  · exact at?_paths hn hread hmem

end Leaf

end Setup

end TrafficWatch
