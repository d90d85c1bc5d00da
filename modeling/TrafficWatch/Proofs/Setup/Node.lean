import TrafficWatch.Setup.Node

/-!
# Setup — Node

What one node laid on another one leaves at the end of a way.  `Covers t lower r` tells of a tree `t`
laid on `lower` what there is then: tables are merged name by name, and everything else of `t` stands
where it stood.  A layer covers what is there with its own tree, which is the layer on nothing
(`Layer.covers`), so below a way through tables there is either what was there or something of that
tree (`Covers.at?`).
-/

namespace TrafficWatch.Setup

variable {name k : String} {n t lower r : Node} {ms : List (String × Node)}

/-! ### Members by name -/

theorem lookup_cons : List.lookup k ((name, n) :: ms) = if k = name then some n else ms.lookup k := by
  rw [List.lookup_cons]
  by_cases h : k = name
  · rw [h, beq_self_eq_true, if_pos rfl]
  · rw [if_neg h, beq_eq_false_iff_ne.mpr h]

theorem ne_of_lookup_singleton (h : [(name, n)].lookup k = none) : k ≠ name := by
  rintro rfl
  rw [lookup_cons, if_pos rfl] at h
  cases h

theorem of_lookup_singleton (h : [(name, n)].lookup k = some t) : k = name ∧ t = n := by
  rw [lookup_cons] at h
  split at h
  · next hname => exact ⟨hname, (Option.some.inj h).symm⟩
  · cases h

theorem lookup_putMember :
    (putMember name n ms).lookup k = if k = name then some n else ms.lookup k := by
  induction ms with
  | nil => rw [putMember, lookup_cons]
  | cons m rest ih =>
      obtain ⟨other, old⟩ := m
      rw [putMember]
      by_cases hname : other = name
      · rw [if_pos hname, lookup_cons, lookup_cons, hname]
        by_cases hk : k = name <;> simp only [hk, if_true, if_false]
      · rw [if_neg hname, lookup_cons, lookup_cons, ih]
        by_cases hk : k = other
        · rw [if_pos hk, if_pos hk, if_neg fun h => hname (hk.symm.trans h)]
        · rw [if_neg hk, if_neg hk]

theorem lookup_eq_none_iff : ms.lookup k = none ↔ k ∉ ms.map Prod.fst := by
  simp only [List.lookup_eq_none_iff, List.mem_map, not_exists, not_and, bne_iff_ne]
  exact ⟨fun h m hm hk => h m hm hk.symm, fun h m hm hk => h m hm hk.symm⟩

theorem mem_of_lookup (h : ms.lookup k = some n) : (k, n) ∈ ms := by
  obtain ⟨before, after, rfl, -⟩ := List.lookup_eq_some_iff.mp h
  exact List.mem_append_right _ (List.mem_cons_self)

theorem mem_putMember {m : String × Node} (h : m ∈ putMember name n ms) :
    m = (name, n) ∨ m ∈ ms := by
  induction ms with
  | nil => exact .inl (List.mem_singleton.mp h)
  | cons old rest ih =>
      rw [putMember] at h
      split at h
      · next hname =>
          rcases List.mem_cons.mp h with rfl | h
          · exact .inl (congrArg (·, n) hname)
          · exact .inr (List.mem_cons_of_mem _ h)
      · rcases List.mem_cons.mp h with rfl | h
        · exact .inr List.mem_cons_self
        · exact (ih h).imp_right (List.mem_cons_of_mem _)

/-- A name that is new gets the last place. -/
theorem putMember_of_notMem (h : name ∉ ms.map Prod.fst) :
    putMember name n ms = ms ++ [(name, n)] := by
  induction ms with
  | nil => rfl
  | cons m rest ih =>
      rw [List.map_cons, List.mem_cons, not_or] at h
      rw [putMember, if_neg (Ne.symm h.1), ih h.2]
      rfl

theorem names_putMember_of_mem (h : name ∈ ms.map Prod.fst) :
    (putMember name n ms).map Prod.fst = ms.map Prod.fst := by
  induction ms with
  | nil => cases h
  | cons m rest ih =>
      rw [putMember]
      split
      · rfl
      · next hname =>
          rw [List.map_cons, List.map_cons, ih ((List.mem_cons.mp h).resolve_left (Ne.symm hname))]

theorem nodup_putMember (h : (ms.map Prod.fst).Nodup) :
    ((putMember name n ms).map Prod.fst).Nodup := by
  by_cases hname : name ∈ ms.map Prod.fst
  · rwa [names_putMember_of_mem hname]
  · rw [putMember_of_notMem hname, List.map_append]
    refine List.nodup_append.mpr ⟨h, List.pairwise_singleton _ _, ?_⟩
    rintro k hk j hj rfl
    exact hname ((List.mem_singleton.mp hj : k = name) ▸ hk)

/-- Laid members that are laid on others: what a name stands for then. -/
theorem lookup_ontoMembers (h : (ms.map Prod.fst).Nodup) (below : List (String × Node)) :
    (Node.ontoMembers ms below).lookup k =
      ((ms.lookup k).map fun n => n.onto ((below.lookup k).getD .absent)).or (below.lookup k) := by
  induction ms generalizing below with
  | nil => rw [Node.ontoMembers]; rfl
  | cons m rest ih =>
      obtain ⟨name, n⟩ := m
      rw [List.map_cons, List.nodup_cons] at h
      rw [Node.ontoMembers, ih h.2, lookup_putMember, lookup_cons]
      by_cases hk : k = name
      · rw [hk, lookup_eq_none_iff.mpr h.1]
        simp
      · rw [if_neg hk, if_neg hk]

namespace Node

/-! ### Tables that name each member once -/

/-- Every table that names lead to has each name once. -/
inductive Keyed : Node → Prop where
  | table {ms : List (String × Node)} (names : (ms.map Prod.fst).Nodup)
      (members : ∀ m ∈ ms, Keyed m.2) : Keyed (.table ms)
  | other {n : Node} (h : ∀ ms, n ≠ .table ms) : Keyed n

theorem Keyed.names (h : Keyed (.table ms)) : (ms.map Prod.fst).Nodup := by
  cases h with
  | table names _ => exact names
  | other h => exact absurd rfl (h ms)

theorem Keyed.members (h : Keyed (.table ms)) : ∀ m ∈ ms, Keyed m.2 := by
  cases h with
  | table _ members => exact members
  | other h => exact absurd rfl (h ms)

theorem keyed_empty : Keyed (.table []) :=
  .table List.nodup_nil nofun

/-- A table stays keyed when a keyed value gets a name in it. -/
theorem Keyed.putMember (h : Keyed (.table ms)) (hn : n.Keyed) :
    Keyed (.table (putMember name n ms)) := by
  refine .table (nodup_putMember h.names) fun m hm => ?_
  rcases mem_putMember hm with rfl | hm
  · exact hn
  · exact h.members m hm

/-! ### Nodes laid on others -/

/-- Members laid after others, none of which has a name of theirs. -/
theorem ontoMembers_append {done : List (String × Node)} (h : ((done ++ ms).map Prod.fst).Nodup)
    (hms : ∀ m ∈ ms, m.2.onto .absent = m.2) : ontoMembers ms done = done ++ ms := by
  induction ms generalizing done with
  | nil => rw [ontoMembers, List.append_nil]
  | cons m rest ih =>
      obtain ⟨name, n⟩ := m
      have hname : name ∉ done.map Prod.fst := fun hmem => by
        rw [List.map_append] at h
        exact (List.nodup_append.mp h).2.2 name hmem name List.mem_cons_self rfl
      rw [ontoMembers, lookup_eq_none_iff.mpr hname, Option.getD_none, hms _ List.mem_cons_self,
        putMember_of_notMem hname, ih, List.append_assoc]
      · rfl
      · rwa [List.append_assoc]
      · exact fun m hm => hms m (List.mem_cons_of_mem _ hm)

/-- **A keyed node on nothing** is itself. -/
theorem Keyed.onto_absent (h : n.Keyed) : n.onto .absent = n := by
  induction h with
  | table names members ih =>
      rw [onto]
      exact congrArg Node.table (ontoMembers_append names ih)
  | @other n h =>
      cases n with
      | table ms => exact absurd rfl (h ms)
      | _ => rfl

/-- What there is when a tree has been laid on something. -/
inductive Covers : Node → Node → Node → Prop where
  /-- What is not a table takes the place of what was there. -/
  | whole {t lower : Node} (h : ∀ ms, t ≠ .table ms) : Covers t lower t
  /-- Of lists it is only said that they are lists. -/
  | list {items lower items'} : Covers (.list items) lower (.list items')
  /-- What a table does not name stays, and what it names is covered. -/
  | table {ms rs : List (String × Node)} {lower : Node} (covered : String → Node)
      (names : (ms.map Prod.fst).Nodup)
      (empty : ms = [] → rs = lower.members)
      (apart : ∀ k, ms.lookup k = none → rs.lookup k = lower.member? k)
      (found : ∀ k n, ms.lookup k = some n → rs.lookup k = some (covered k))
      (below : ∀ k n, ms.lookup k = some n → Covers n ((lower.member? k).getD .absent) (covered k)) :
      Covers (.table ms) lower (.table rs)

/-- A node that is laid on another one covers it. -/
theorem Keyed.covers_onto (h : n.Keyed) (lower : Node) : Covers n lower (n.onto lower) := by
  induction h generalizing lower with
  | @table ms names members ih =>
      rw [onto]
      refine .table
        (fun k => ((ms.lookup k).getD .absent).onto ((lower.member? k).getD .absent)) names ?_ ?_ ?_ ?_
      · rintro rfl
        rw [ontoMembers]
      · intro k hk
        rw [lookup_ontoMembers names, hk]
        rfl
      · intro k n hk
        rw [lookup_ontoMembers names, hk]
        rfl
      · intro k n hk
        rw [hk]
        exact ih _ (mem_of_lookup hk) _
  | @other n h =>
      cases n with
      | table ms => exact absurd rfl (h ms)
      | _ => exact .whole h

/-- A node that is laid at the end of a way covers what is there with the way itself and what is at
its end. -/
theorem Keyed.covers_layAt (h : n.Keyed) (way : Way) (lower : Node) :
    Covers (n.layAt way .absent) lower (n.layAt way lower) := by
  induction way generalizing lower with
  | nil =>
      rw [layAt, h.onto_absent, layAt]
      exact h.covers_onto lower
  | cons step rest ih =>
      cases step with
      | place k => exact .list
      | member name =>
          rw [layAt, layAt]
          change Covers (.table [(name, n.layAt rest .absent)]) lower _
          refine .table (fun _ => n.layAt rest ((lower.member? name).getD .absent))
            (List.pairwise_singleton _ _) nofun ?_ ?_ ?_
          · intro k hk
            rw [lookup_putMember, if_neg (ne_of_lookup_singleton hk)]
            rfl
          · intro k m hk
            rw [lookup_putMember, if_pos (of_lookup_singleton hk).1]
          · intro k m hk
            obtain ⟨rfl, rfl⟩ := of_lookup_singleton hk
            exact ih _

end Node

end TrafficWatch.Setup
