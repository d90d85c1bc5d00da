import TrafficWatch.Proofs.Setup.Layers
import TrafficWatch.Setup.Sources

/-!
# Setup — Sources

What is read from files has each name once in every table (`Files.isLawful`): a later member of a JSON
object takes the place of an earlier one of its name, and in the draft of a TOML document a name is
replaced where it is or added where it is new.
-/

namespace TrafficWatch

open Setup (Node putMember lookup_cons mem_of_lookup)

/-! ### JSON -/

namespace Setup.Node

mutual

/-- A JSON value is keyed. -/
theorem keyed_ofJson : ∀ v : Json.Value, (ofJson v).Keyed
  | .null | .bool _ | .text _ | .number (.natural _) | .number (.negative _) | .number (.real _)
  | .list _ => .other nofun
  | .object ms => keyed_ofJsonMembers ms [] keyed_empty

theorem keyed_ofJsonMembers : ∀ (ms : List (String × Json.Value)) (done : List (String × Node)),
    Keyed (.table done) → Keyed (.table (ofJsonMembers ms done))
  | [], _, h => h
  | (_, v) :: rest, _, h => keyed_ofJsonMembers rest _ (h.putMember (keyed_ofJson v))

end

end Setup.Node

/-! ### TOML -/

namespace Toml

open Setup.Node (Keyed keyed_empty)

variable {name : String} {n : Node} {d : Draft} {ms ms' : Members}

/-- The names of a draft are distinct, and so are those of the tables in it. -/
def Members.Keyed (ms : Members) : Prop :=
  Node.Keyed (.table (nodesOf ms))

theorem Members.keyed_nil : Members.Keyed [] :=
  keyed_empty

theorem nodesOf_put : nodesOf (ms.put name d) = putMember name d.node (nodesOf ms) := by
  induction ms with
  | nil => rfl
  | cons m rest ih =>
      obtain ⟨k, old⟩ := m
      rw [Members.put, nodesOf, putMember]
      split
      · rfl
      · rw [nodesOf, ih]

theorem lookup_nodesOf : (nodesOf ms).lookup name = (ms.lookup name).map Draft.node := by
  induction ms with
  | nil => rfl
  | cons m rest ih =>
      obtain ⟨k, d⟩ := m
      rw [nodesOf, List.lookup_cons, List.lookup_cons]
      split
      · rfl
      · exact ih

theorem Members.Keyed.node (h : ms.Keyed) (hd : ms.lookup name = some d) : d.node.Keyed :=
  Node.Keyed.members h (name, d.node) (mem_of_lookup (by rw [lookup_nodesOf, hd]; rfl))

theorem Members.Keyed.put (h : ms.Keyed) (hd : d.node.Keyed) : (ms.put name d).Keyed := by
  rw [Keyed, nodesOf_put]
  exact Node.Keyed.putMember h hd

theorem Members.Keyed.state (h : ms.Keyed) (hread : ms.state name = some ms') : ms'.Keyed := by
  rw [Members.state] at hread
  split at hread
  · cases hread
    exact h.put keyed_empty
  · next inner hinner =>
      have hkeyed : Node.Keyed (.table (nodesOf inner)) := h.node hinner
      cases hread
      exact h.put hkeyed
  · cases hread

theorem keyed_list (items : List Node) : Node.Keyed (.list items) :=
  .other nofun

theorem Members.Keyed.stateNext (h : ms.Keyed) (hread : ms.stateNext name = some ms') : ms'.Keyed := by
  rw [Members.stateNext] at hread
  split at hread
  all_goals cases hread
  all_goals exact h.put (keyed_list _)

/-- A change at the end of a header keeps what every such change keeps. -/
theorem Members.Keyed.atHeader {change : Members → Option Members}
    (hchange : ∀ {ms ms' : Members}, ms.Keyed → change ms = some ms' → ms'.Keyed)
    {header : List String} (h : ms.Keyed) (hread : ms.atHeader change header = some ms') :
    ms'.Keyed := by
  induction header generalizing ms ms' with
  | nil => exact hchange h hread
  | cons name rest ih =>
      rw [Members.atHeader] at hread
      split at hread
      · obtain ⟨inner, hinner, hput⟩ := Option.bind_eq_some_iff.mp hread
        cases hput
        exact h.put (ih Members.keyed_nil hinner)
      · cases hread
      · next kind old hold =>
          obtain ⟨inner, hinner, hput⟩ := Option.bind_eq_some_iff.mp hread
          cases hput
          exact h.put (ih (h.node hold) hinner)
      · obtain ⟨last, -, hput⟩ := Option.bind_eq_some_iff.mp hread
        cases hput
        exact h.put (keyed_list _)

/-- A value that is given to a key is keyed there as it was. -/
theorem Members.Keyed.assign {key : List String} (h : ms.Keyed) (hn : n.Keyed)
    (hread : ms.assign n key = some ms') : ms'.Keyed := by
  induction key generalizing ms ms' with
  | nil => cases hread
  | cons name rest ih =>
      cases rest with
      | nil =>
          rw [Members.assign, Members.add] at hread
          split at hread
          · cases hread
          · cases hread
            exact h.put hn
      | cons next rest =>
          rw [Members.assign] at hread
          split at hread
          · obtain ⟨inner, hinner, hput⟩ := Option.bind_eq_some_iff.mp hread
            cases hput
            exact h.put (ih Members.keyed_nil hinner)
          · cases hread
          · next kind old hold =>
              split at hread
              · cases hread
              · obtain ⟨inner, hinner, hput⟩ := Option.bind_eq_some_iff.mp hread
                cases hput
                exact h.put (ih (h.node hold) hinner)
          · split at hread
            · cases hread
            · obtain ⟨last, -, hput⟩ := Option.bind_eq_some_iff.mp hread
              cases hput
              exact h.put (keyed_list _)

/-! ### Values and lines -/

section Words

variable {negative : Bool} {s : List Char}

theorem keyed_wordNumber {k : Int} (h : wordNumber k = some n) : n.Keyed := by
  rw [wordNumber] at h
  split at h
  · cases h
    exact .other nofun
  · cases h

theorem keyed_finite {x : Float} (h : readDecimal.finite x = some n) : n.Keyed := by
  rw [readDecimal.finite] at h
  split at h
  · cases h
    exact .other nofun
  · cases h

theorem keyed_readBased {base : Nat} {isDigit : Char → Bool} (h : readBased base isDigit s = some n) :
    n.Keyed := by
  obtain ⟨digits, -, h⟩ := Option.bind_eq_some_iff.mp h
  exact keyed_wordNumber h

theorem keyed_readDecimal (h : readDecimal negative s = some n) : n.Keyed := by
  obtain ⟨digits, -, h⟩ := Option.bind_eq_some_iff.mp h
  split at h
  · cases h
  · dsimp only at h
    split at h
    · exact keyed_wordNumber h
    · obtain ⟨places, -, h⟩ := Option.bind_eq_some_iff.mp h
      obtain ⟨e, -, h⟩ := Option.bind_eq_some_iff.mp h
      exact keyed_finite h
    · obtain ⟨e, -, h⟩ := Option.bind_eq_some_iff.mp h
      exact keyed_finite h

theorem keyed_readSigned (h : readSigned negative s = some n) : n.Keyed := by
  rw [readSigned] at h
  split at h
  · cases h
    exact .other nofun
  · split at h
    · cases h
      exact .other nofun
    · exact keyed_readDecimal h

/-- A word stands for no table. -/
theorem keyed_wordNode (h : wordNode s = some n) : n.Keyed := by
  unfold wordNode at h
  split at h
  · cases h
    exact .other nofun
  split at h
  · cases h
    exact .other nofun
  split at h
  · exact keyed_readSigned h
  · exact keyed_readSigned h
  · exact keyed_readBased h
  · exact keyed_readBased h
  · exact keyed_readBased h
  · split at h
    · next hsigned =>
        cases h
        exact keyed_readSigned hsigned
    · obtain ⟨t, -, rfl⟩ := Option.map_eq_some_iff.mp h
      exact .other nofun

end Words

/-- **A value that is read is keyed**, and so is a table between braces; both go by the same bound. -/
theorem keyed_readValue_readInline (fuel : Nat) :
    (∀ {room s n rest}, readValue fuel room s = some (n, rest) → n.Keyed) ∧
      ∀ {room ms s ms' rest}, Members.Keyed ms → readInline fuel room ms s = some (ms', rest) →
        ms'.Keyed := by
  induction fuel with
  | zero => exact ⟨fun h => (by rw [readValue] at h; cases h), fun _ h => (by rw [readInline] at h; cases h)⟩
  | succ fuel ih =>
      refine ⟨fun {room s n rest} h => ?_, fun {room ms s ms' rest} hms h => ?_⟩
      · unfold readValue at h
        split at h
        · obtain ⟨⟨t, rest⟩, -, hn⟩ := Option.map_eq_some_iff.mp h
          cases hn
          exact .other nofun
        · obtain ⟨⟨t, rest⟩, -, hn⟩ := Option.map_eq_some_iff.mp h
          cases hn
          exact .other nofun
        · cases h
        · cases h
        · obtain ⟨⟨items, rest⟩, -, hn⟩ := Option.map_eq_some_iff.mp h
          cases hn
          exact keyed_list _
        · obtain ⟨⟨ms, rest⟩, hms, hn⟩ := Option.map_eq_some_iff.mp h
          cases hn
          exact ih.2 Members.keyed_nil hms
        · obtain ⟨n, hn, hpair⟩ := Option.map_eq_some_iff.mp h
          cases hpair
          exact keyed_wordNode hn
      · rw [readInline] at h
        split at h
        · cases h
          exact hms
        · obtain ⟨⟨key, s⟩, -, h⟩ := Option.bind_eq_some_iff.mp h
          dsimp only at h
          split at h
          · obtain ⟨⟨n, s⟩, hn, h⟩ := Option.bind_eq_some_iff.mp h
            obtain ⟨next, hnext, h⟩ := Option.bind_eq_some_iff.mp h
            have hkeyed := hms.assign (ih.1 hn) hnext
            dsimp only at h
            split at h
            · cases h
              exact hkeyed
            · exact ih.2 hkeyed h
            · cases h
          · cases h

theorem keyed_readAssignment {s rest : List Char} {key : List String}
    (h : readAssignment s = some (key, n, rest)) : n.Keyed := by
  obtain ⟨⟨key, s⟩, -, h⟩ := Option.bind_eq_some_iff.mp h
  dsimp only at h
  split at h
  · obtain ⟨⟨m, s⟩, hm, h⟩ := Option.bind_eq_some_iff.mp h
    cases h
    exact (keyed_readValue_readInline _).1 hm
  · cases h

section Lines

variable {p p' : Progress}

theorem Progress.keyed_open {key : List String} {isRow : Bool} (hp : p.root.Keyed)
    (h : p.open key isRow = some p') : p'.root.Keyed := by
  obtain ⟨name, -, h⟩ := Option.bind_eq_some_iff.mp h
  obtain ⟨root, hroot, h⟩ := Option.bind_eq_some_iff.mp h
  cases h
  refine hp.atHeader (fun hms hchange => ?_) hroot
  cases isRow with
  | true => exact hms.stateNext hchange
  | false => exact hms.state hchange

theorem Progress.keyed_assign {key : List String} (hp : p.root.Keyed) (hn : n.Keyed)
    (h : p.assign key n = some p') : p'.root.Keyed := by
  obtain ⟨root, hroot, h⟩ := Option.bind_eq_some_iff.mp h
  cases h
  exact hp.atHeader (fun hms hchange => hms.assign hn hchange) hroot

theorem keyed_readHeader {s rest : List Char} (hp : p.root.Keyed)
    (h : readHeader p s = some (p', rest)) : p'.root.Keyed := by
  unfold readHeader at h
  split at h
  all_goals
    obtain ⟨⟨key, s⟩, -, h⟩ := Option.bind_eq_some_iff.mp h
    dsimp only at h
    split at h
    · obtain ⟨q, hq, h⟩ := Option.bind_eq_some_iff.mp h
      cases h
      exact Progress.keyed_open hp hq
    · cases h

/-- Every line keeps the draft keyed. -/
theorem keyed_readLines {fuel : Nat} {s : List Char} (hp : p.root.Keyed)
    (h : readLines fuel p s = some p') : p'.root.Keyed := by
  induction fuel generalizing p s with
  | zero => cases h
  | succ fuel ih =>
      rw [readLines] at h
      split at h
      · cases h
        exact hp
      · obtain ⟨⟨q, s⟩, hq, h⟩ := Option.bind_eq_some_iff.mp h
        obtain ⟨s, -, h⟩ := Option.bind_eq_some_iff.mp h
        exact ih (keyed_readHeader hp hq) h
      · obtain ⟨⟨key, n, s⟩, hn, h⟩ := Option.bind_eq_some_iff.mp h
        obtain ⟨q, hq, h⟩ := Option.bind_eq_some_iff.mp h
        obtain ⟨s, -, h⟩ := Option.bind_eq_some_iff.mp h
        exact ih (p.keyed_assign hp (keyed_readAssignment hn) hq) h

end Lines

/-- **The table of a document** is keyed. -/
theorem keyed_ofText? {text : List Char} {members : List (String × Node)}
    (h : ofText? text = some members) : (Node.table members).Keyed := by
  obtain ⟨p, hp, rfl⟩ := Option.map_eq_some_iff.mp h
  exact keyed_readLines Members.keyed_nil hp

end Toml

/-! ### Files -/

namespace Setup

theorem Format.keyed_members? {f : Format} {text : List Char} {ms : List (String × Node)}
    (h : f.members? text = some ms) : (Node.table ms).Keyed := by
  cases f with
  | toml => exact Toml.keyed_ofText? h
  | json =>
      rw [Format.members?] at h
      split at h
      · next v _ =>
          split at h
          · next members hmembers =>
              split at h
              · cases h
                exact hmembers ▸ Node.keyed_ofJson v
              · cases h
          · cases h
      · cases h

/-- The layers of a text are lawful. -/
theorem Format.isLawful {f : Format} {text : String} {layers : List Layer}
    (h : f.layers text = .ok layers) : ∀ l ∈ layers, l.IsLawful := by
  rw [Format.layers] at h
  split at h
  · next ms hms =>
      cases h
      exact fun l hl => isLawful_of_mem_layersOf (Format.keyed_members? hms) hl
  · cases h

theorem isLawful_namedLayers {name : String} {content : Option String} {layers : List Layer}
    (h : namedLayers name content = .ok layers) : ∀ l ∈ layers, l.IsLawful := by
  unfold namedLayers at h
  split at h
  · exact Format.isLawful h
  · cases h

theorem isLawful_layersAt {content : String → Option String} {place : String} {layers : List Layer}
    (h : layersAt content place = .ok layers) : ∀ l ∈ layers, l.IsLawful := by
  rw [layersAt] at h
  split at h
  · cases h
    nofun
  · split at h
    · exact Format.isLawful h
    · cases h
      nofun

end Setup

end TrafficWatch
