import TrafficWatch.Proofs.Sequence
import TrafficWatch.Proofs.Settings.Exactness
import TrafficWatch.Proofs.Setup.Reading
import TrafficWatch.Proofs.Setup.Sources

/-!
# Setup — Precedence

Every value of a configuration is the one of the last layer that sets it (`layers_in_order`).  The
layers are the usual values, the files in their order, and the environment; each of them says with its
tree what it sets.  So a value depends on nothing but what the layers set at its own place, and an
entry for another one, wherever it is added, changed or removed, makes no difference to it.
-/

namespace TrafficWatch.Setup

/-! ### The files -/

/-- Which files there are to read. -/
inductive Files where
  /-- The file of a name, if there is one. -/
  | named (name : String) (content : Option String)
  /-- Those at the usual places, by their names. -/
  | usual (content : String → Option String)

namespace Files

/-- The layers of all files, if every file that is there can be read. -/
def read : Files → Except Failure (List Layer)
  | named name content => namedLayers name content
  | usual content => usualLayers content

/-- The layers of the files one by one, of which a later one lies over those before it. -/
def sources : Files → List (Except Failure (List Layer))
  | named name content => [namedLayers name content]
  | usual content => [layersAt content "aegis", layersAt content "config/aegis"]

/-- The layers of the files that can be read. -/
def layers (files : Files) : List Layer :=
  files.sources.flatMap fun source => source.toOption.getD []

variable {files : Files} {ls : List Layer}

/-- Files that can be read are read one after the other. -/
theorem layers_of_read (h : files.read = .ok ls) : files.layers = ls := by
  cases files with
  | named name content =>
      simp only [read] at h
      simp only [layers, sources, h, List.flatMap_cons, List.flatMap_nil, List.append_nil]
      rfl
  | usual content =>
      obtain ⟨parts, hparts, rfl⟩ := map_eq_ok h
      rw [usualPlaces, List.mapM_cons] at hparts
      obtain ⟨first, hfirst, hparts⟩ := bind_eq_ok hparts
      rw [List.mapM_cons] at hparts
      obtain ⟨rest, hrest, hparts⟩ := bind_eq_ok hparts
      obtain ⟨second, hsecond, hrest⟩ := bind_eq_ok hrest
      cases hrest
      cases hparts
      simp only [layers, sources, hfirst, hsecond, List.flatMap_cons, List.flatMap_nil]
      rfl

theorem isLawful_of_mem_layers {l : Layer} (hl : l ∈ files.layers) : l.IsLawful := by
  obtain ⟨source, hsource, hmem⟩ := List.mem_flatMap.mp hl
  cases hlayers : source with
  | error failure => rw [hlayers] at hmem; cases hmem
  | ok ls =>
      rw [hlayers] at hmem
      cases files with
      | named name content =>
          exact isLawful_namedLayers ((List.mem_singleton.mp hsource).symm.trans hlayers) l hmem
      | usual content =>
          rcases List.mem_cons.mp hsource with rfl | hsource
          · exact isLawful_layersAt hlayers l hmem
          · exact isLawful_layersAt ((List.mem_singleton.mp hsource).symm.trans hlayers) l hmem

/-- The layers of the files and of the environment, the upper ones last. -/
def under (files : Files) (environment : List (String × String)) : List Layer :=
  files.layers ++ environmentLayers environment

variable {processors : Nat} {environment : List (String × String)} {c : Setup}

theorem isLawful_of_mem_under {l : Layer} (hl : l ∈ files.under environment) : l.IsLawful := by
  rcases List.mem_append.mp hl with hl | hl
  · exact isLawful_of_mem_layers hl
  · exact isLawful_of_mem_environmentLayers hl

/-- A configuration that is loaded has been read from all layers and passes the check. -/
theorem of_load (h : load processors files.read environment = .ok c) :
    ofNode processors .free (merged processors (files.under environment)) = some c ∧
      c.detection.flaw? = none := by
  obtain ⟨ls, hls, h⟩ := bind_eq_ok h
  rw [← layers_of_read hls, ofLayers] at h
  split at h
  · cases h
  · next c' hc =>
      split at h
      · cases h
      · next hflaw =>
          cases h
          exact ⟨hc, hflaw⟩

/-- What does not pass the check is not loaded. -/
theorem refused_of_not_isSound
    (hread : ofNode processors .free (merged processors (files.under environment)) = some c)
    (hunsound : ¬ c.detection.IsSound) :
    ∃ failure, load processors files.read environment = .error failure ∧
      ∀ ls, files.read = .ok ls → ∃ flaw, failure = .settings flaw := by
  cases hfiles : files.read with
  | error failure => exact ⟨failure, rfl, nofun⟩
  | ok ls =>
      obtain ⟨flaw, hflaw⟩ := Option.ne_none_iff_exists'.mp fun h =>
        hunsound (Settings.flaw?_eq_none_iff_isSound.mp h)
      refine ⟨.settings flaw, ?_, fun _ _ => ⟨flaw, rfl⟩⟩
      change ofLayers processors (ls ++ environmentLayers environment) = _
      rw [under, layers_of_read hfiles] at hread
      simp only [ofLayers, hread, hflaw]

end Files

/-! ### Layers that differ by an entry -/

/-- An entry is added to a layer, changed in it or removed from it. -/
inductive Revises (entry : List String) : List Layer → List Layer → Prop where
  | changed {before after l l'} (h : Node.SameBut entry (some l.tree) (some l'.tree)) :
      Revises entry (before ++ l :: after) (before ++ l' :: after)
  /-- A layer is added with the entry. -/
  | added {before after l} (h : Node.SameBut entry none (some l.tree)) :
      Revises entry (before ++ after) (before ++ l :: after)
  /-- A layer is removed with the entry. -/
  | removed {before after l} (h : Node.SameBut entry none (some l.tree)) :
      Revises entry (before ++ l :: after) (before ++ after)

/-- What is set elsewhere stays as it is. -/
theorem Revises.lastSet?_eq {entry names : List String} {ls ls' : List Layer}
    (h : Revises entry ls ls') (hbelow : ¬ entry <+: names) (habove : ¬ names <+: entry) (t : Node) :
    lastSet? names (t :: ls.map Layer.tree) = lastSet? names (t :: ls'.map Layer.tree) := by
  have hchanged {t t' : Node} (hsame : Node.SameBut entry (some t) (some t')) :
      t.set? names = t'.set? names := by
    have hat : t.at? names = t'.at? names := hsame.at?_eq hbelow habove
    rw [Node.set?, Node.set?, hat]
  have hadded {t : Node} (hsame : Node.SameBut entry none (some t)) : t.set? names = none := by
    have hat : none = t.at? names := hsame.at?_eq hbelow habove
    rw [Node.set?, ← hat]
  refine congrArg List.getLast? ?_
  cases h with
  | changed h =>
      simp only [List.map_append, List.map_cons, List.filterMap_append, List.filterMap_cons,
        hchanged h]
  | added h | removed h =>
      simp only [List.map_append, List.map_cons, List.filterMap_append, List.filterMap_cons, hadded h]

/-- Leaves do not stand on the way to each other. -/
theorem names_eq_of_leads {a b : Leaf} (ha : a ∈ leaves) (hb : b ∈ leaves) (h : a.names <+: b.names) :
    a.names = b.names := by
  obtain ⟨above, habove, name, hname⟩ := names_of_mem_leaves hb
  rw [hname] at h ⊢
  refine (List.prefix_concat_iff.mp h).resolve_right fun h => ?_
  -- what leads to a table of the configuration is one of its tables
  have htables : ∀ above ∈ Node.tables, ∀ names ∈ above.inits, names ∈ [] :: Node.tables := by decide
  have hleaf : ∀ leaf ∈ leaves, leaf.names ∉ [] :: Node.tables := by decide +kernel
  exact hleaf a ha (htables above habove _ ((List.mem_inits _ _).mpr h))

/-- The letters of the variable for a leaf. -/
def variableLetters (names : List String) : List Char :=
  "AEGIS_".toList ++ ['_', '_'].intercalate (names.map fun name => name.toList.map Char.toUpper)

theorem variableLayer?_variableName : ∀ leaf ∈ leaves, ∀ value,
    variableLayer? (String.ofList (variableLetters leaf.names)) value =
      some ⟨leaf.names.map .member, variableNode value⟩ := by
  have hway : ∀ leaf ∈ leaves,
      (afterMark? variableMark ((variableLetters leaf.names).map lowerLetter)).map
        (fun rest => wayOf (pointed rest)) = some (leaf.names.map .member) := by decide +kernel
  intro leaf hleaf value
  obtain ⟨rest, hrest, hway⟩ := Option.map_eq_some_iff.mp (hway leaf hleaf)
  rw [variableLayer?, String.toList_ofList, hrest, Option.map_some, hway]

/-- An entry that is put into a table of a file. -/
theorem revises_putMember {before after : List Layer} {above : List String} {name : String} {n : Node}
    {ms : List (String × Node)} (h : (Node.table ms).Keyed) (hn : n.Keyed) :
    Revises (above ++ [name]) (before ++ ⟨above.map .member, .table ms⟩ :: after)
      (before ++ ⟨above.map .member, .table (putMember name n ms)⟩ :: after) := by
  have hends : Node.SameBut [name] ((some (Node.table ms)).map (·.onto .absent))
      ((some (Node.table (putMember name n ms))).map (·.onto .absent)) := by
    refine ⟨fun k hk => ?_, trivial⟩
    simp only [Option.map_some, h.onto_absent, (h.putMember hn).onto_absent]
    exact (lookup_putMember.trans (if_neg hk)).symm
  exact .changed (hends.layAt above)

/-- A variable that is set, and the same variable with another value. -/
theorem revises_variable (files : Files) (before after : List (String × String)) {leaf : Leaf}
    (hleaf : leaf ∈ leaves) (value : String) :
    let name := String.ofList (variableLetters leaf.names)
    Revises leaf.names (files.under (before ++ after)) (files.under (before ++ (name, value) :: after)) ∧
      ∀ value', Revises leaf.names (files.under (before ++ (name, value) :: after))
        (files.under (before ++ (name, value') :: after)) := by
  intro name
  have hunder (value : String) : files.under (before ++ (name, value) :: after) =
      (files.layers ++ environmentLayers before) ++
        ⟨leaf.names.map .member, variableNode value⟩ :: environmentLayers after := by
    have hlayer : variableLayer? name value = some ⟨leaf.names.map .member, variableNode value⟩ :=
      variableLayer?_variableName leaf hleaf value
    simp only [Files.under, environmentLayers, List.filterMap_append, List.filterMap_cons, hlayer,
      List.append_assoc]
  have hwithout : files.under (before ++ after) =
      (files.layers ++ environmentLayers before) ++ environmentLayers after := by
    rw [Files.under, environmentLayers, List.filterMap_append, List.append_assoc]
    rfl
  have hentry (t t' : Option Node) : Node.SameBut leaf.names
      (t.map (·.layAt (leaf.names.map .member) .absent))
      (t'.map (·.layAt (leaf.names.map .member) .absent)) := by
    have hends : Node.SameBut [] (t.map (·.onto .absent)) (t'.map (·.onto .absent)) := trivial
    have h := hends.layAt leaf.names
    rwa [List.append_nil] at h
  refine ⟨?_, fun value' => ?_⟩
  · rw [hunder, hwithout]
    exact .added (hentry none (some _))
  · rw [hunder, hunder]
    exact .changed (hentry (some _) (some _))

/-- **What has been loaded, leaf by leaf.** -/
theorem at?_of_load {processors : Nat} {files : Files} {environment : List (String × String)}
    {c : Setup} (hkeeps : ∀ l ∈ files.under environment, l.tree.KeepsTables)
    (h : load processors files.read environment = .ok c) {leaf : Leaf} (hleaf : leaf ∈ leaves) :
    (lastSet? leaf.names ((usual processors).toNode :: (files.under environment).map Layer.tree)).map
        (leaf.kind.read .free) = (c.toNode.at? leaf.names).map some := by
  have hlayers (l : Layer) (hl : l ∈ files.under environment) : l.IsLawful ∧ l.tree.KeepsTables :=
    ⟨Files.isLawful_of_mem_under hl, hkeeps l hl⟩
  obtain ⟨hread, -⟩ := Files.of_load h
  have hend := at?_of_ofNode (Node.isComplete_merged hlayers) hread hleaf
  rcases shows_merged hleaf hlayers with ⟨n, hn, hunread⟩ | hshows
  · -- what cannot be read would not have been loaded
    rw [hn, Option.map_some, hunread] at hend
    cases hc : c.toNode.at? leaf.names with
    | none => rw [hc] at hend; cases hend
    | some v => rw [hc] at hend; cases hend
  · rw [← hshows, hend]

/-- **The last layer decides.**  The environment has a variable for every leaf.  Where no layer of the
files or of the environment puts something else in the place of a table, every value of a configuration
that is loaded is the one of the last layer that sets it: the usual values are the lowest, then come the
files in their order, and the environment is the highest.  Adding, changing or removing an entry for one
leaf in a layer changes no other.  What is loaded has settings that are sound, and what would have
others is refused. -/
theorem layers_in_order :
    (∀ leaf ∈ leaves, ∀ value,
      variableLayer? (String.ofList (variableLetters leaf.names)) value =
        some ⟨leaf.names.map .member, variableNode value⟩) ∧
    ∀ (processors : Nat) (files : Files) (environment : List (String × String)),
      (∀ l ∈ files.under environment, l.tree.KeepsTables) →
      (∀ c, load processors files.read environment = .ok c →
        (∀ leaf ∈ leaves,
          (lastSet? leaf.names
              ((usual processors).toNode :: (files.under environment).map Layer.tree)).map
            (leaf.kind.read .free) = (c.toNode.at? leaf.names).map some) ∧
        (∀ (files' : Files) (environment' : List (String × String)) (c' : Setup),
          (∀ l ∈ files'.under environment', l.tree.KeepsTables) →
          load processors files'.read environment' = .ok c' →
          ∀ entry ∈ leaves, Revises entry.names (files.under environment) (files'.under environment') →
          ∀ leaf ∈ leaves, leaf.names ≠ entry.names →
            c.toNode.at? leaf.names = c'.toNode.at? leaf.names) ∧
        c.detection.IsSound) ∧
      ∀ c, ofNode processors .free (merged processors (files.under environment)) = some c →
        ¬ c.detection.IsSound →
        ∃ failure, load processors files.read environment = .error failure ∧
          ∀ ls, files.read = .ok ls → ∃ flaw, failure = .settings flaw := by
  refine ⟨variableLayer?_variableName, fun processors files environment hkeeps =>
    ⟨fun c hc => ⟨?_, ?_, ?_⟩, ?_⟩⟩
  · exact fun leaf => at?_of_load hkeeps hc
  · intro files' environment' c' hkeeps' hc' entry hentry hrevises leaf hleaf hne
    have hlast := hrevises.lastSet?_eq
      (fun h => hne (names_eq_of_leads hentry hleaf h).symm)
      (fun h => hne (names_eq_of_leads hleaf hentry h)) ((usual processors).toNode)
    have hsame := (at?_of_load hkeeps hc hleaf).symm.trans
      ((congrArg _ hlast).trans (at?_of_load hkeeps' hc' hleaf))
    exact Option.map_injective (Option.some_injective _) hsame
  · exact Settings.flaw?_eq_none_iff_isSound.mp (Files.of_load hc).2
  · exact fun c => Files.refused_of_not_isSound

/-- A file of settings. -/
def debugging : Files :=
  .named "aegis.toml"
    (some "[log]\nlevel = \"debug\"\n\n[detection]\nmode = \"ml\"\nrps_threshold = 50.0\n")

/-- A variable for one of its values. -/
def modeVariable : String × String :=
  (String.ofList (variableLetters ["detection", "mode"]), "hybrid")

/-- A file alone, and a file under a variable for one of its values. -/
theorem layers_in_order_debugging :
    (∀ l ∈ debugging.under [modeVariable], l.tree.KeepsTables) ∧
    ∃ c c', load 1 debugging.read [] = .ok c ∧ load 1 debugging.read [modeVariable] = .ok c' ∧
      (c'.toNode.at? ["detection", "mode"]).bind Reading.exact.text = some "hybrid" ∧
      c.toNode.at? ["log", "level"] = c'.toNode.at? ["log", "level"] ∧ c'.detection.IsSound := by
  have hkeeps : ∀ l ∈ debugging.under [], l.tree.KeepsTables := by decide +kernel
  have hkeeps' : ∀ l ∈ debugging.under [modeVariable], l.tree.KeepsTables := by decide +kernel
  have hloads : (load 1 debugging.read []).toOption.any (fun _ => true) = true := by decide +kernel
  have hloads' : (load 1 debugging.read [modeVariable]).toOption.any (fun _ => true) = true := by
    decide +kernel
  obtain ⟨c, hc, -⟩ := exists_ok hloads
  obtain ⟨c', hc', -⟩ := exists_ok hloads'
  let mode : Leaf := ⟨["detection", "mode"], .word (Mode.all.map (·.name))⟩
  let level : Leaf := ⟨["log", "level"], .text⟩
  have hmode : mode ∈ leaves := List.mem_append_left _ (List.mem_append_right _ List.mem_cons_self)
  have hlevel : level ∈ leaves := List.mem_append_left _ (List.mem_append_left _ List.mem_cons_self)
  obtain ⟨hvalues, -, hsound⟩ := (layers_in_order.2 1 debugging [modeVariable] hkeeps').1 c' hc'
  obtain ⟨-, hothers, -⟩ := (layers_in_order.2 1 debugging [] hkeeps).1 c hc
  have hlast : ((lastSet? mode.names
      ((usual 1).toNode :: (debugging.under [modeVariable]).map Layer.tree)).map
        (mode.kind.read .free)).bind (·.bind Reading.exact.text) = some "hybrid" := by decide +kernel
  rw [hvalues mode hmode] at hlast
  refine ⟨hkeeps', c, c', hc, hc', ?_, ?_, hsound⟩
  · rwa [Option.bind_map] at hlast
  · exact hothers debugging [modeVariable] c' hkeeps' hc' mode hmode
      (revises_variable debugging [] [] hmode "hybrid").1 level hlevel (by decide)

end TrafficWatch.Setup
