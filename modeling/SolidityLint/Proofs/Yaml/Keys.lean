import SolidityLint.Config.Loading
import SolidityLint.Proofs.Config.Checks
import SolidityLint.Proofs.Config.Reading

/-! The keys of mappings that are read. A mapping takes up its entries one after another, and a key that comes again
    keeps its first place, so no text is a key twice. Every step keeps this for the objects that were made before it,
    and the unfolding of objects to a value keeps it for the parts of the value, wherever it cuts them off. So a rule
    configuration that is read from a document is always well keyed. -/

namespace SolidityLint

/-- Whether a value has no parts that are told apart by their places or by keys. -/
def Value.isLeaf : Value → Bool
  | .list _ | .mapping _ | .pair _ _ => false
  | _ => true

/-- No mapping in a value has a text as a key twice. -/
inductive Value.Keyed : Value → Prop
  | leaf {value : Value} (single : value.isLeaf = true) : Keyed value
  | list {items : List Value} (each : ∀ item ∈ items, Keyed item) : Keyed (.list items)
  | pair {key value : Value} (one : Keyed key) (two : Keyed value) : Keyed (.pair key value)
  | mapping {entries : List (Value × Value)} (once : ∀ name, entries.countP (hasKey name) ≤ 1)
      (each : ∀ entry ∈ entries, Keyed entry.2) : Keyed (.mapping entries)

namespace Yaml

/-! ### Scalars -/

theorem Timestamp.isLeaf_value {parts : TimestampParts} {value : Value} (made : Timestamp.value parts = .ok value) :
    value.isLeaf = true := by
  unfold Timestamp.value at made
  split at made
  · obtain ⟨day, -, rfl⟩ := map_eq_ok_iff.mp made
    rfl
  · dsimp only at made
    split at made
    · cases made
    · obtain ⟨day, -, made⟩ := exists_of_bind_eq_ok made
      split at made
      · cases made
      · split at made
        · cases made
        · split at made
          · cases made
          · exact Except.ok.inj made ▸ rfl

theorem isLeaf_float {origin : Nat} {text : RawText} {value : Value} (made : float origin text = .ok value) :
    value.isLeaf = true := by
  unfold float at made
  dsimp only at made
  split at made
  · cases made
  · split at made
    · exact Except.ok.inj made ▸ rfl
    · obtain ⟨size, -, made⟩ := exists_of_bind_eq_ok made
      exact Except.ok.inj made ▸ rfl

theorem isLeaf_scalarValue {origin : Nat} {tag : Tag} {text : RawText} {value : Value}
    (made : scalarValue origin tag text = .ok value) : value.isLeaf = true := by
  cases tag with
  | null | str => exact Except.ok.inj made ▸ rfl
  | int =>
    obtain ⟨n, -, rfl⟩ := map_eq_ok_iff.mp made
    rfl
  | float => exact isLeaf_float made
  | bool | binary =>
    unfold scalarValue at made
    dsimp only at made
    split at made
    · exact Except.ok.inj made ▸ rfl
    · cases made
  | timestamp =>
    unfold scalarValue at made
    dsimp only at made
    split at made
    · exact Timestamp.isLeaf_value made
    · cases made
  | seq | map | set | omap | pairs | merge | value | unknown => cases made

/-! ### Tables -/

section

variable {α : Type} {property : α → Prop} {table : Array (Option α)}

/-- Whatever is in a table so far has a property. -/
def Each (property : α → Prop) (table : Array (Option α)) : Prop :=
  ∀ id one, table.getD id none = some one → property one

theorem each_replicate (property : α → Prop) (size : Nat) : Each property (Array.replicate size none) := by
  intro id one there
  rw [Array.getD_eq_getD_getElem?, Array.getElem?_replicate] at there
  split at there <;> cases there

theorem Each.set (each : Each property table) (place : Nat) {value : Option α}
    (own : ∀ one, value = some one → property one) : Each property (table.setIfInBounds place value) := by
  intro id one there
  rw [Array.getD_eq_getD_getElem?, Array.getElem?_setIfInBounds] at there
  split at there
  · split at there
    · exact own one there
    · cases there
  · rw [← Array.getD_eq_getD_getElem?] at there
    exact each id one there

end

/-! ### Objects -/

/-- A leaf, or a collection that has no text as a key twice; its parts are other objects. -/
def Object.Keyed : Object → Prop
  | .value made => made.isLeaf = true
  | .mapping entries => ∀ name, entries.countP (Value.hasKey name) ≤ 1
  | .list _ | .pairs _ | .set _ => True

namespace Construction

variable {c after : Construction} {id : Nat}

/-- No object that was made so far has a key twice. -/
def Keyed (c : Construction) : Prop :=
  Each Object.Keyed c.table

theorem Keyed.make (keyed : c.Keyed) (id : Nat) (object : Object) (own : object.Keyed) : (c.make id object).Keyed :=
  Each.set keyed id fun _ same => Option.some.inj same ▸ own

theorem isLeaf_scalar {value : Value} (made : c.scalar id = .ok value) : value.isLeaf = true := by
  unfold scalar at made
  dsimp only at made
  split at made
  · cases made
  · obtain ⟨text, -, made⟩ := exists_of_bind_eq_ok made
    split at made
    · cases made
    · exact isLeaf_scalarValue made

theorem Keyed.meet (keyed : c.Keyed) (met : c.meet id = .ok after) : after.Keyed := by
  unfold Construction.meet at met
  split at met
  · exact Except.ok.inj met ▸ keyed
  · split at met
    · exact Except.ok.inj met ▸ keyed.make id (.list []) trivial
    · obtain ⟨value, read, rfl⟩ := map_eq_ok_iff.mp met
      exact keyed.make id (.value value) (isLeaf_scalar read)

theorem Keyed.meetKey (keyed : c.Keyed) {key : Value} (met : c.meetKey id = .ok (after, key)) : after.Keyed := by
  unfold Construction.meetKey at met
  split at met
  · cases met
  · obtain ⟨next, first, met⟩ := exists_of_bind_eq_ok met
    split at met
    · obtain ⟨rfl, -⟩ := Prod.mk.inj (Except.ok.inj met)
      exact keyed.meet first
    · cases met

/-- A mapping takes up its entries one after another, and each sets its key. -/
theorem Keyed.meetEntries (keyed : c.Keyed) {entries : List (Nat × Nat)} {made : List (Value × Nat)}
    (met : c.meetEntries entries = .ok (after, made)) :
    after.Keyed ∧ ∀ name, made.countP (Value.hasKey name) ≤ 1 := by
  refine foldlM_keeps (P := fun state => state.1.Keyed ∧ ∀ name, state.2.countP (Value.hasKey name) ≤ 1) ?_
    ⟨keyed, fun _ => Nat.zero_le 1⟩ met
  rintro ⟨c, done⟩ entry ⟨after, made⟩ ⟨keyed, once⟩ step
  obtain ⟨⟨next, key⟩, first, step⟩ := exists_of_bind_eq_ok step
  obtain ⟨last, second, step⟩ := exists_of_bind_eq_ok step
  obtain ⟨rfl, rfl⟩ := Prod.mk.inj (Except.ok.inj step)
  exact ⟨(keyed.meetKey first).meet second, fun name => Value.countP_hasKey_insertEntry (once name) key entry.2⟩

theorem Keyed.meetMapping (keyed : c.Keyed) {made : List (Value × Nat)} (met : c.meetMapping id = .ok (after, made)) :
    after.Keyed ∧ ∀ name, made.countP (Value.hasKey name) ≤ 1 := by
  obtain ⟨graph, -, met⟩ := exists_of_bind_eq_ok met
  have kept : { c with graph }.Keyed := keyed
  exact kept.meetEntries met

theorem Keyed.meetPair (keyed : c.Keyed) {entry : Nat × Nat} (met : c.meetPair id = .ok (after, entry)) :
    after.Keyed := by
  unfold Construction.meetPair at met
  split at met
  · obtain ⟨next, first, met⟩ := exists_of_bind_eq_ok met
    obtain ⟨last, second, same⟩ := exists_of_bind_eq_ok met
    obtain ⟨rfl, -⟩ := Prod.mk.inj (Except.ok.inj same)
    exact (keyed.meet first).meet second
  · cases met

theorem Keyed.meetPairs (keyed : c.Keyed) {items : List Nat} {entries : List (Nat × Nat)}
    (met : c.meetPairs items = .ok (after, entries)) : after.Keyed := by
  obtain ⟨⟨last, reversed⟩, all, same⟩ := exists_of_bind_eq_ok met
  obtain ⟨rfl, -⟩ := Prod.mk.inj (Except.ok.inj same)
  refine foldlM_keeps (P := fun state => state.1.Keyed) ?_ keyed all
  rintro ⟨c, done⟩ item ⟨after, made⟩ keyed step
  obtain ⟨⟨next, entry⟩, first, step⟩ := exists_of_bind_eq_ok step
  obtain ⟨rfl, -⟩ := Prod.mk.inj (Except.ok.inj step)
  exact Keyed.meetPair keyed first

theorem Keyed.complete (keyed : c.Keyed) (made : c.complete id = .ok after) : after.Keyed := by
  unfold Construction.complete at made
  dsimp only at made
  split at made
  · obtain ⟨next, all, same⟩ := exists_of_bind_eq_ok made
    have kept := foldlM_keeps (fun _ _ _ keyed met => Keyed.meet keyed met) keyed all
    exact Except.ok.inj same ▸ kept.make id _ trivial
  · obtain ⟨⟨next, entries⟩, met, same⟩ := exists_of_bind_eq_ok made
    exact Except.ok.inj same ▸ (keyed.meetPairs met).make id _ trivial
  · obtain ⟨⟨next, entries⟩, met, same⟩ := exists_of_bind_eq_ok made
    exact Except.ok.inj same ▸ (keyed.meetPairs met).make id _ trivial
  · obtain ⟨⟨next, entries⟩, met, same⟩ := exists_of_bind_eq_ok made
    obtain ⟨kept, once⟩ := keyed.meetMapping met
    exact Except.ok.inj same ▸ kept.make id (.mapping entries) once
  · obtain ⟨⟨next, entries⟩, met, same⟩ := exists_of_bind_eq_ok made
    exact Except.ok.inj same ▸ (keyed.meetMapping met).1.make id _ trivial
  · cases made

theorem Keyed.completeLevels (keyed : c.Keyed) {level : List Nat} {fuel : Nat}
    (made : c.completeLevels level fuel = .ok after) : after.Keyed := by
  induction fuel generalizing c level with
  | zero => exact Except.ok.inj made ▸ keyed
  | succ fuel ih =>
    rw [Construction.completeLevels] at made
    split at made
    · exact Except.ok.inj made ▸ keyed
    · obtain ⟨next, all, made⟩ := exists_of_bind_eq_ok made
      have start : { c with waiting := [] }.Keyed := keyed
      exact ih (foldlM_keeps (fun _ _ _ keyed made => Keyed.complete keyed made) start all) made

end Construction

namespace Objects

/-- No object has a key twice. -/
def Keyed (objects : Objects) : Prop :=
  Each Object.Keyed objects.table

theorem keyed_ofGraph {g : Graph} {objects : Objects} (made : ofGraph g = .ok objects) : objects.Keyed := by
  unfold ofGraph at made
  dsimp only at made
  obtain ⟨first, met, made⟩ := exists_of_bind_eq_ok made
  obtain ⟨last, all, same⟩ := exists_of_bind_eq_ok made
  have start : Construction.Keyed ⟨g, 2 * g.mergeCount + 2, Array.replicate g.nodes.size none, []⟩ :=
    each_replicate Object.Keyed g.nodes.size
  exact Except.ok.inj same ▸ (start.meet met).completeLevels all

/-! ### Unfolding -/

theorem exists_of_mem_mapM {α β : Type} {f : α → Option β} {items : List α} {made : List β}
    (h : items.mapM f = some made) {one : β} (hm : one ∈ made) : ∃ item, f item = some one := by
  induction items generalizing made with
  | nil =>
    obtain rfl := Option.some.inj h
    cases hm
  | cons item rest ih =>
    rw [List.mapM_cons] at h
    obtain ⟨first, found, h⟩ := Option.bind_eq_some_iff.mp h
    obtain ⟨others, all, same⟩ := Option.bind_eq_some_iff.mp h
    obtain rfl := Option.some.inj same
    rcases List.mem_cons.mp hm with rfl | later
    · exact ⟨item, found⟩
    · exact ih all later

/-- The keys of a mapping are kept when its parts are put in. -/
theorem countP_hasKey_of_mapM {part : Value → Nat → Option Value} {entries : List (Value × Nat)}
    {made : List (Value × Value)}
    (h : entries.mapM (fun (key, id) => do return (key, ← part key id)) = some made) (name : RawText) :
    made.countP (Value.hasKey name) = entries.countP (Value.hasKey name) := by
  induction entries generalizing made with
  | nil => exact Option.some.inj h ▸ rfl
  | cons entry rest ih =>
    rw [List.mapM_cons] at h
    obtain ⟨first, found, h⟩ := Option.bind_eq_some_iff.mp h
    obtain ⟨others, all, same⟩ := Option.bind_eq_some_iff.mp h
    obtain ⟨value, -, kept⟩ := Option.bind_eq_some_iff.mp found
    obtain rfl := Option.some.inj same
    obtain rfl := Option.some.inj kept
    rw [List.countP_cons, List.countP_cons, ih all]
    rfl

variable {objects : Objects} {closed : Array (Option Value)}

/-- An object without a key twice, whose parts have none, is unfolded to a value without one. -/
theorem keyed_of_assemble {object : Object} {value : Value} {part : Value → Nat → Option Value}
    {pair : Nat → Nat × Nat → Option Value} (own : object.Keyed)
    (parts : ∀ key id one, part key id = some one → one.Keyed)
    (pairs : ∀ place entry one, pair place entry = some one → one.Keyed)
    (made : assemble part pair object = some value) : value.Keyed := by
  cases object with
  | value single => exact Option.some.inj made ▸ .leaf own
  | set members => exact Option.some.inj made ▸ .leaf rfl
  | list items =>
    obtain ⟨values, all, same⟩ := Option.bind_eq_some_iff.mp made
    refine Option.some.inj same ▸ .list fun one hm => ?_
    obtain ⟨item, found⟩ := exists_of_mem_mapM all hm
    exact parts _ _ _ found
  | pairs entries =>
    obtain ⟨values, all, same⟩ := Option.bind_eq_some_iff.mp made
    refine Option.some.inj same ▸ .list fun one hm => ?_
    obtain ⟨item, found⟩ := exists_of_mem_mapM all hm
    exact pairs _ _ _ found
  | mapping entries =>
    obtain ⟨values, all, same⟩ := Option.bind_eq_some_iff.mp made
    refine Option.some.inj same ▸ .mapping (fun name => ?_) fun one hm => ?_
    · exact countP_hasKey_of_mapM all name ▸ own name
    · obtain ⟨⟨key, id⟩, found⟩ := exists_of_mem_mapM all hm
      obtain ⟨value, found, kept⟩ := Option.bind_eq_some_iff.mp found
      exact Option.some.inj kept ▸ parts _ _ _ found

/-- Parts that are there are put together as they are with a failure for those that are not. -/
theorem assemble_some (part : Value → Nat → Value) (pair : Nat → Nat × Nat → Value) (object : Object) :
    assemble (fun key id => some (part key id)) (fun place entry => some (pair place entry)) object =
      some (Id.run (assemble part pair object)) := by
  have kept {α β : Type} (f : α → β) (items : List α) :
      items.mapM (fun item => some (f item)) = some (items.mapM (m := Id) f).run := by
    rw [List.idRun_mapM]
    exact List.mapM_pure
  cases object with
  | value single => rfl
  | set members => rfl
  | list items =>
    rw [assemble, kept (part .null)]
    rfl
  | pairs entries =>
    rw [assemble, kept fun entry : (Nat × Nat) × Nat => pair entry.2 entry.1]
    rfl
  | mapping entries =>
    have told := kept (fun entry : Value × Nat => (entry.1, part entry.1 entry.2)) entries
    exact congrArg (Option.bind · (some ∘ Value.mapping)) told

theorem keyed_of_assemble_id {object : Object} {part : Value → Nat → Value} {pair : Nat → Nat × Nat → Value}
    (own : object.Keyed) (parts : ∀ key id, (part key id).Keyed) (pairs : ∀ place entry, (pair place entry).Keyed) :
    (Id.run (assemble part pair object)).Keyed :=
  keyed_of_assemble own (fun _ _ _ same => Option.some.inj same ▸ parts _ _)
    (fun _ _ _ same => Option.some.inj same ▸ pairs _ _) (assemble_some part pair object)

/-- No value of a part that is closed has a key twice, whatever the order in which the objects are taken. -/
theorem keyed_closedValues (keyed : objects.Keyed) (order : List Nat) :
    Each Value.Keyed (objects.closedValues order) := by
  refine List.foldlRecOn order _ (each_replicate Value.Keyed objects.table.size) fun values shut own _ => ?_
  refine shut.set own fun value there => ?_
  obtain ⟨object, made, there⟩ := Option.bind_eq_some_iff.mp there
  refine keyed_of_assemble (keyed _ _ made) (fun _ id one same => shut id one same) ?_ there
  intro _ entry one same
  obtain ⟨first, key, same⟩ := Option.bind_eq_some_iff.mp same
  obtain ⟨second, part, same⟩ := Option.bind_eq_some_iff.mp same
  exact Option.some.inj same ▸ .pair (shut _ _ key) (shut _ _ part)

theorem keyed_again (object : Option Object) : (again object).Keyed := by
  unfold again
  split <;> exact .leaf rfl

mutual

theorem keyed_shown (keyed : objects.Keyed) (shut : Each Value.Keyed closed) (around : List (Nat × Nat)) (id : Nat) :
    (fuel : Nat) → (objects.shown closed around id fuel).Keyed
  | 0 => by
    rw [shown]
    exact keyed_again _
  | fuel + 1 => by
    rw [shown]
    split
    · rename_i there
      exact shut _ _ there
    · exact .leaf rfl
    · rename_i object there
      split
      · exact keyed_again _
      · exact keyed_of_assemble_id (keyed _ _ there) (fun _ part => keyed_shown keyed shut _ part fuel)
          fun place entry => keyed_shownPair keyed shut _ id place entry fuel

theorem keyed_shownPair (keyed : objects.Keyed) (shut : Each Value.Keyed closed) (around : List (Nat × Nat))
    (id place : Nat) (entry : Nat × Nat) : (fuel : Nat) →
    (objects.shownPair closed around id place entry fuel).Keyed
  | 0 => by
    rw [shownPair]
    exact .leaf rfl
  | fuel + 1 => by
    rw [shownPair]
    split
    · exact .leaf rfl
    · exact .pair (keyed_shown keyed shut _ _ fuel) (keyed_shown keyed shut _ _ fuel)

end

theorem keyed_valueOf (keyed : objects.Keyed) (shut : Each Value.Keyed closed) (purpose : Purpose) (id : Nat) :
    (objects.valueOf closed purpose id).Keyed := by
  induction purpose generalizing id with
  | unused =>
    rw [valueOf]
    exact .leaf rfl
  | shown =>
    rw [valueOf]
    exact keyed_shown keyed shut _ _ _
  | within use ih =>
    rw [valueOf]
    split
    · exact .leaf rfl
    · rename_i object there
      refine keyed_of_assemble_id (keyed _ _ there) (fun key part => ih key part) fun place entry => ?_
      split
      · exact keyed_shownPair keyed shut _ _ _ _ _
      · exact .leaf rfl

end Objects

/-- No mapping in the value of a document has a text as a key twice. -/
theorem keyed_load {purpose : Purpose} {bytes : List UInt8} {value : Value} (loaded : load purpose bytes = .ok value) :
    value.Keyed := by
  unfold load at loaded
  obtain ⟨graph, -, loaded⟩ := exists_of_bind_eq_ok loaded
  split at loaded
  · exact Except.ok.inj loaded ▸ .leaf rfl
  · obtain ⟨objects, made, same⟩ := exists_of_bind_eq_ok loaded
    have keyed := Objects.keyed_ofGraph made
    exact Except.ok.inj same ▸ Objects.keyed_valueOf keyed (Objects.keyed_closedValues keyed _) _ _

end Yaml

/-- The rule configuration in the value of a document is well keyed. -/
theorem RuleConfiguration.wellKeyed_of_keyed {entries : List (Value × Value)} (keyed : (Value.mapping entries).Keyed) :
    WellKeyed entries := by
  cases keyed with
  | leaf single => cases single
  | mapping once each =>
    refine ⟨fun category => once category.key, fun category inner there rule own => ?_⟩
    cases each _ there with
    | leaf single => cases single
    | mapping once each => exact once rule.key

/-- Whatever document is read: the rules that it has are well keyed. -/
theorem wellKeyed_of_readDocument {fs : FileSystem} {path : Path} {entries rules : List (Value × Value)}
    (read : CheckerConfig.readDocument fs path = .ok (some (.mapping entries)))
    (there : Value.entry? "rules" entries = some (.mapping rules)) : RuleConfiguration.WellKeyed rules := by
  unfold CheckerConfig.readDocument at read
  obtain ⟨known, -, read⟩ := exists_of_bind_eq_ok read
  split at read
  · obtain ⟨bytes, -, read⟩ := exists_of_bind_eq_ok read
    obtain ⟨value, loaded, same⟩ := map_eq_ok_iff.mp read
    obtain rfl := Option.some.inj same
    have keyed := Yaml.keyed_load (mapError_eq_ok_iff.mp loaded)
    rw [Value.entry?_eq] at there
    obtain ⟨entry, found, own⟩ := Option.map_eq_some_iff.mp there
    cases keyed with
    | leaf single => cases single
    | mapping once each =>
      exact RuleConfiguration.wellKeyed_of_keyed (own ▸ each entry (List.mem_of_find?_eq_some found))
  · cases read

end SolidityLint
