import Mathlib.Data.List.Infix
import TrafficWatch.Proofs.Setup.Node
import TrafficWatch.Setup.Basic
import TrafficWatch.Setup.Environment

/-!
# Setup — Layers

Layers as trees.  A layer says what its tree holds: what it sets is what stands at the end of a list of
names in the tree, where a table without members sets nothing (`Node.set?`).  Where the tree keeps the
tables of the configuration, a layer that is laid over a configuration either leaves what stands at the
end of the names or covers it with what it sets (`Layer.covers_at?`).
-/

namespace TrafficWatch.Setup

/-! ### What names lead to -/

namespace Node

/-- What stands at the end of names. -/
def at? (names : List String) (n : Node) : Option Node :=
  n.follow? (names.map .member)

variable {name : String} {names : List String} {n t lower r : Node}

theorem at?_nil : n.at? [] = some n := by
  cases n <;> rfl

theorem at?_cons : n.at? (name :: names) = (n.member? name).bind (at? names) := by
  cases n <;> rfl

/-- Nothing is below what is absent. -/
theorem getD_at?_absent : (absent.at? names).getD absent = absent := by
  cases names with
  | nil => rw [at?_nil]; rfl
  | cons name names => rw [at?_cons]; rfl

theorem at?_of_getD_at? (h : names ≠ []) (entry : Option Node) :
    (entry.getD absent).at? names = entry.bind (at? names) := by
  cases entry with
  | some n => rfl
  | none =>
      cases names with
      | nil => exact absurd rfl h
      | cons name names => rw [Option.getD_none, at?_cons]; rfl

/-- It is a table. -/
def IsTable (n : Node) : Prop := ∃ ms, n = table ms

instance : (n : Node) → Decidable n.IsTable
  | table ms => .isTrue ⟨ms, rfl⟩
  | absent | truth _ | whole _ | real _ | text _ | list _ => .isFalse nofun

/-- Names lead through tables only. -/
def Leads : List String → Node → Prop
  | [], _ => True
  | name :: names, n => n.IsTable ∧ ∀ m, n.member? name = some m → m.Leads names

theorem leads_snoc {above : List String}
    (h : ∀ names, names <+: above → ∀ n, t.at? names = some n → n.IsTable) :
    t.Leads (above ++ [name]) := by
  induction above generalizing t with
  | nil => exact ⟨h [] List.nil_prefix t at?_nil, fun _ _ => trivial⟩
  | cons k above ih =>
      refine ⟨h [] List.nil_prefix t at?_nil, fun m hm => ih fun names hnames n hn => ?_⟩
      refine h (k :: names) (List.cons_prefix_cons.mpr ⟨rfl, hnames⟩) n ?_
      rw [at?_cons, hm]
      exact hn

theorem Covers.isTable (h : Covers t lower r) (ht : t.IsTable) : r.IsTable := by
  obtain ⟨ms, rfl⟩ := ht
  cases h with
  | whole h => exact absurd rfl (h ms)
  | table => exact ⟨_, rfl⟩

/-- **What is covered at the end of names** that lead through tables. -/
theorem Covers.at? (h : Covers t lower r) (hleads : t.Leads names) :
    (t.at? names = none ∧ r.at? names = lower.at? names) ∨
      ∃ n m, t.at? names = some n ∧ r.at? names = some m ∧
        Covers n ((lower.at? names).getD .absent) m := by
  induction names generalizing t lower r with
  | nil => exact .inr ⟨t, r, at?_nil, at?_nil, by rwa [at?_nil]⟩
  | cons name names ih =>
      obtain ⟨⟨ms, rfl⟩, hleads⟩ := hleads
      cases h with
      | whole h => exact absurd rfl (h ms)
      | @table _ rs _ covered _ _ apart found below =>
          rw [at?_cons, at?_cons, at?_cons]
          cases hname : ms.lookup name with
          | none =>
              refine .inl ⟨?_, ?_⟩
              · rw [show (Node.table ms).member? name = none from hname]; rfl
              · rw [show (Node.table rs).member? name = _ from apart name hname]
          | some n =>
              rw [show (Node.table ms).member? name = some n from hname,
                show (Node.table rs).member? name = _ from found name n hname]
              rcases ih (below name n hname) (hleads n hname) with ⟨hnone, hsame⟩ | hcovered
              · have hnames : names ≠ [] := fun h => by rw [h, at?_nil] at hnone; cases hnone
                exact .inl ⟨hnone, hsame.trans (at?_of_getD_at? hnames _)⟩
              · refine .inr ?_
                cases hlower : lower.member? name with
                | some m => rwa [hlower] at hcovered
                | none => rwa [hlower, Option.getD_none, getD_at?_absent] at hcovered

/-- What a tree sets at the end of names; a table without members sets nothing. -/
def set? (names : List String) (t : Node) : Option Node :=
  match t.at? names with
  | some (table []) => none
  | entry => entry

theorem set?_eq_none (h : t.set? names = none) : t.at? names = none ∨ t.at? names = some (table []) := by
  rw [set?] at h
  split at h
  · next hentry => exact .inr hentry
  · exact .inl h

theorem set?_eq_some (h : t.set? names = some n) : t.at? names = some n ∧ n ≠ table [] := by
  rw [set?] at h
  split at h
  · cases h
  · next hentry => exact ⟨h, fun hempty => hentry (hempty ▸ h)⟩

/-- Where the tables of the configuration are. -/
def tables : List (List String) := [["log"], ["detection"], ["detection", "persistence"]]

/-- The tables of the configuration, where there are any, are tables. -/
def KeepsTables (t : Node) : Prop :=
  ∀ names ∈ tables, ∀ n, t.at? names = some n → n.IsTable

instance (t : Node) : Decidable t.KeepsTables :=
  inferInstanceAs (Decidable (∀ names ∈ tables, ∀ n ∈ t.at? names, n.IsTable))

/-- Where they are, names lead through tables to what is in one of them. -/
theorem KeepsTables.leads (h : t.KeepsTables) (hroot : t.IsTable) {above : List String}
    (habove : above ∈ tables) (name : String) : t.Leads (above ++ [name]) := by
  have hbeginnings : ∀ above ∈ tables, ∀ names ∈ above.inits, names ≠ [] → names ∈ tables := by decide
  refine leads_snoc fun names hnames n hn => ?_
  rcases eq_or_ne names [] with rfl | hne
  · rw [at?_nil] at hn
    exact Option.some.inj hn ▸ hroot
  · exact h names (hbeginnings above habove names ((List.mem_inits _ _).mpr hnames) hne) n hn

/-- Two trees, each of which may be missing, are the same but for what stands at the end of names. -/
def SameBut : List String → Option Node → Option Node → Prop
  | [], _, _ => True
  | name :: names, t, t' =>
    (∀ k, k ≠ name → t.bind (member? k) = t'.bind (member? k)) ∧
      SameBut names (t.bind (member? name)) (t'.bind (member? name))

/-- Nodes that are the same but for an entry are so at the end of a way, too. -/
theorem SameBut.layAt (above : List String) {t t' : Option Node}
    (h : SameBut names (t.map (·.onto .absent)) (t'.map (·.onto .absent))) :
    SameBut (above ++ names) (t.map (·.layAt (above.map .member) .absent))
      (t'.map (·.layAt (above.map .member) .absent)) := by
  induction above with
  | nil => exact h
  | cons name above ih =>
      -- the way leads through a table that has nothing but the next name
      have hfound (t : Option Node) :
          (t.map (·.layAt ((name :: above).map .member) .absent)).bind (member? name) =
            t.map (·.layAt (above.map .member) .absent) := by
        cases t with
        | none => rfl
        | some n => exact lookup_putMember.trans (if_pos rfl)
      have hothers (t : Option Node) (k : String) (hk : k ≠ name) :
          (t.map (·.layAt ((name :: above).map .member) .absent)).bind (member? k) = none := by
        cases t with
        | none => rfl
        | some n => exact lookup_putMember.trans (if_neg hk)
      refine ⟨fun k hk => (hothers t k hk).trans (hothers t' k hk).symm, ?_⟩
      rw [hfound, hfound]
      exact ih

/-- Other names lead to the same, unless they lead there through the entry or stop on the way to it. -/
theorem SameBut.at?_eq {entry : List String} {t t' : Option Node} (h : SameBut entry t t')
    (hbelow : ¬ entry <+: names) (habove : ¬ names <+: entry) :
    t.bind (at? names) = t'.bind (at? names) := by
  induction entry generalizing names t t' with
  | nil => exact absurd List.nil_prefix hbelow
  | cons name entry ih =>
      cases names with
      | nil => exact absurd List.nil_prefix habove
      | cons k names =>
          have hstep (t : Option Node) :
              t.bind (at? (k :: names)) = (t.bind (member? k)).bind (at? names) := by
            cases t with
            | none => rfl
            | some n => exact at?_cons
          rw [hstep, hstep]
          by_cases hk : k = name
          · subst hk
            exact ih h.2 (fun hpre => hbelow (List.cons_prefix_cons.mpr ⟨rfl, hpre⟩))
              fun hpre => habove (List.cons_prefix_cons.mpr ⟨rfl, hpre⟩)
          · rw [h.1 k hk]

end Node

/-! ### Layers -/

/-- The tree of a layer, which is the layer over nothing. -/
def Layer.tree (l : Layer) : Node :=
  l.over .absent

/-- A layer whose way begins with a name and whose node has each name once. -/
structure Layer.IsLawful (l : Layer) : Prop where
  keyed : l.node.Keyed
  named : ∃ name rest, l.way = .member name :: rest

/-- Every text stands for a way that begins with a name. -/
theorem exists_wayOf_eq (text : List Char) : ∃ name rest, wayOf text = .member name :: rest := by
  rw [wayOf]
  cases h : readWay? text with
  | none => exact ⟨_, _, rfl⟩
  | some way =>
      rw [readWay?] at h
      split at h
      · cases h
      · obtain ⟨rest, -, rfl⟩ := Option.map_eq_some_iff.mp h
        exact ⟨_, _, rfl⟩

namespace Layer.IsLawful

variable {l : Layer} {names : List String} {lower : Node}

theorem isTable_over (h : l.IsLawful) (lower : Node) : (l.over lower).IsTable := by
  obtain ⟨name, rest, hway⟩ := h.named
  rw [Layer.over, hway, Node.layAt]
  exact ⟨_, rfl⟩

theorem isTable_tree (h : l.IsLawful) : l.tree.IsTable :=
  h.isTable_over .absent

/-- A layer covers what is there with its tree. -/
theorem covers (h : l.IsLawful) (lower : Node) : Node.Covers l.tree lower (l.over lower) :=
  h.keyed.covers_layAt l.way lower

end Layer.IsLawful

/-- The layers of a keyed table are lawful. -/
theorem isLawful_of_mem_layersOf {ms : List (String × Node)} {l : Layer}
    (h : (Node.table ms).Keyed) (hl : l ∈ layersOf ms) : l.IsLawful := by
  obtain ⟨m, hm, rfl⟩ := List.mem_map.mp hl
  exact ⟨h.members m hm, exists_wayOf_eq _⟩

/-- The value of a variable is no table. -/
theorem keyed_variableNode (value : String) : (variableNode value).Keyed := by
  refine .other fun ms => ?_
  rw [variableNode]
  split
  · nofun
  · split
    · nofun
    · split
      · nofun
      · split <;> nofun

theorem isLawful_of_mem_environmentLayers {environment : List (String × String)} {l : Layer}
    (hl : l ∈ environmentLayers environment) : l.IsLawful := by
  obtain ⟨⟨name, value⟩, -, hlayer⟩ := List.mem_filterMap.mp hl
  obtain ⟨rest, -, rfl⟩ := Option.map_eq_some_iff.mp hlayer
  exact ⟨keyed_variableNode value, exists_wayOf_eq _⟩

end TrafficWatch.Setup
