import SolidityLint.Proofs.Files.Discovery

/-! What stands at a place of a tree, seen without what is below it. Following a path looks at nothing else, and
    setting a file or an empty directory changes it at one place only (`Entry.nodeAt?_set`). -/

namespace SolidityLint

/-- What stands at a place of a tree: a file with its content, or a directory, whatever is in it. -/
inductive Node where
  | file (content : List UInt8)
  | directory
  deriving DecidableEq

namespace Entry

def node : Entry → Node
  | .file content => .file content
  | .directory _ => .directory

def nodeAt? (entry : Entry) (place : List String) : Option Node :=
  (entry.get? place).map node

/-! ### Places below others -/

theorem get?_append (entry : Entry) (names rest : List String) :
    entry.get? (names ++ rest) = (entry.get? names).bind fun found => found.get? rest := by
  induction names generalizing entry with
  | nil => rfl
  | cons name names ih =>
    rw [List.cons_append, get?, get?]
    cases entry.child? name with
    | none => rfl
    | some child => exact ih child

theorem nodeAt?_nil (entry : Entry) : entry.nodeAt? [] = some entry.node := rfl

theorem nodeAt?_cons (entry : Entry) (name : String) (rest : List String) :
    entry.nodeAt? (name :: rest) = (entry.child? name).bind fun child => child.nodeAt? rest := by
  rw [nodeAt?, get?]
  cases entry.child? name <;> rfl

theorem nodeAt?_eq_directory_iff {entry : Entry} {place : List String} :
    entry.nodeAt? place = some .directory ↔ ∃ children, entry.get? place = some (.directory children) := by
  unfold nodeAt?
  cases entry.get? place with
  | none => exact ⟨nofun, nofun⟩
  | some found => cases found <;> simp [node]

theorem nodeAt?_eq_file_iff {entry : Entry} {place : List String} {content : List UInt8} :
    entry.nodeAt? place = some (.file content) ↔ entry.get? place = some (.file content) := by
  unfold nodeAt?
  cases entry.get? place with
  | none => exact ⟨nofun, nofun⟩
  | some found => cases found <;> simp [node]

/-- Only a directory has something in it. -/
theorem nodeAt?_of_nodeAt?_concat {entry : Entry} {place : List String} {name : String}
    (h : (entry.nodeAt? (place ++ [name])).isSome = true) : entry.nodeAt? place = some .directory := by
  unfold nodeAt? at h ⊢
  rw [get?_append] at h
  cases found : entry.get? place with
  | none => rw [found] at h; cases h
  | some inner =>
    rw [found] at h
    cases inner with
    | file content => cases h
    | directory children => rfl

theorem isSome_nodeAt?_of_append {entry : Entry} {names rest : List String}
    (h : (entry.nodeAt? (names ++ rest)).isSome = true) : (entry.nodeAt? names).isSome = true := by
  unfold nodeAt? at h ⊢
  rw [get?_append] at h
  cases found : entry.get? names with
  | none => rw [found] at h; cases h
  | some inner => rfl

theorem nodeAt?_dropLast {entry : Entry} {place : List String} (h : entry.nodeAt? place = some .directory) :
    entry.nodeAt? place.dropLast = some .directory := by
  rcases List.eq_nil_or_concat place with rfl | ⟨front, name, rfl⟩
  · exact h
  · rw [List.concat_eq_append] at h ⊢
    rw [List.dropLast_concat]
    exact nodeAt?_of_nodeAt?_concat (by rw [h]; rfl)

/-! ### Setting an entry -/

/-- Where an entry is replaced, a name is found where it was found before. -/
theorem find?_replace (children : List (String × Entry)) (name other : String) (child : Entry) :
    (children.map fun old => if old.1 = name then (name, child) else old).find? (·.1 = other) =
      (children.find? (·.1 = other)).map fun old => if old.1 = name then (name, child) else old := by
  rw [List.find?_map]
  refine congrArg (Option.map _) (congrArg (List.find? · children) (funext fun old => ?_))
  rw [Function.comp_apply]
  split
  · rename_i same
    rw [same]
  · rfl

theorem child?_setChild (children : List (String × Entry)) (name other : String) (child : Entry) :
    ((directory children).setChild name child).child? other =
      if other = name then some child else (directory children).child? other := by
  unfold setChild
  dsimp only
  split
  · rename_i there
    rw [child?, find?_replace, Option.map_map]
    split
    · rename_i same
      subst same
      have there : (children.find? (·.1 = other)).isSome = true := by rwa [List.find?_isSome, ← List.any_eq_true]
      obtain ⟨found, hf⟩ := Option.isSome_iff_exists.mp there
      have named : found.1 = other := by simpa using List.find?_some hf
      rw [hf, Option.map_some, Function.comp_apply, if_pos named]
    · rename_i different
      rw [child?]
      cases hf : children.find? (·.1 = other) with
      | none => rfl
      | some found =>
        have named : found.1 = other := by simpa using List.find?_some hf
        rw [Option.map_some, Function.comp_apply, if_neg (named ▸ different), Option.map_some]
  · rename_i missing
    rw [child?, List.find?_append]
    split
    · rename_i same
      subst same
      have absent : children.find? (·.1 = other) = none := by
        refine List.find?_eq_none.mpr fun old hm named => missing ?_
        exact List.any_eq_true.mpr ⟨old, hm, named⟩
      rw [absent]
      simp
    · rename_i different
      simp [child?, Ne.symm different]

theorem node_setChild (entry : Entry) (name : String) (child : Entry) : (entry.setChild name child).node = entry.node := by
  cases entry with
  | file content => rfl
  | directory children =>
    unfold setChild
    dsimp only
    split <;> rfl

theorem nodeAt?_setChild (children : List (String × Entry)) (name : String) (child : Entry) (other : String)
    (rest : List String) :
    ((directory children).setChild name child).nodeAt? (other :: rest) =
      if other = name then child.nodeAt? rest else (directory children).nodeAt? (other :: rest) := by
  rw [nodeAt?_cons, child?_setChild, nodeAt?_cons]
  split <;> rfl

/-- Setting an entry in a directory that is there: below the new entry is what it brings, and elsewhere what was
    there. -/
theorem nodeAt?_set {entry : Entry} {place : List String} (parent : entry.nodeAt? place = some .directory)
    (name : String) (new : Entry) (other : List String) :
    (entry.set (place ++ [name]) new).nodeAt? other =
      if (place ++ [name]) <+: other then new.nodeAt? (other.drop (place.length + 1)) else entry.nodeAt? other := by
  induction place generalizing entry other with
  | nil =>
    obtain ⟨children, found⟩ := nodeAt?_eq_directory_iff.mp parent
    obtain rfl : entry = directory children := Option.some.inj found
    have made : (directory children).set [name] new = (directory children).setChild name new := by
      rw [set]
      split <;> rfl
    rw [List.nil_append, made]
    cases other with
    | nil => simp [nodeAt?_nil, node_setChild]
    | cons first rest =>
      rw [nodeAt?_setChild]
      simp [eq_comm]
  | cons first place ih =>
    rw [nodeAt?_cons] at parent
    cases found : entry.child? first with
    | none => rw [found] at parent; cases parent
    | some child =>
      rw [found] at parent
      cases entry with
      | file content => cases found
      | directory children =>
        rw [List.cons_append, set, found]
        dsimp only
        cases other with
        | nil => simp [nodeAt?_nil, node_setChild]
        | cons step rest =>
          rw [nodeAt?_setChild]
          by_cases same : step = first
          · subst same
            rw [if_pos rfl, ih parent, nodeAt?_cons, found]
            simp
          · rw [if_neg same, if_neg fun h => same (List.cons_prefix_cons.mp h).1.symm]

theorem setChild_setChild (entry : Entry) (name : String) (child child' : Entry) :
    (entry.setChild name child).setChild name child' = entry.setChild name child' := by
  cases entry with
  | file content => rfl
  | directory children =>
    by_cases there : children.any (·.1 = name) = true
    · have still : (children.map fun old => if old.1 = name then (name, child) else old).any (·.1 = name) = true := by
        obtain ⟨old, hm, named⟩ := List.any_eq_true.mp there
        refine List.any_eq_true.mpr ⟨(name, child), List.mem_map.mpr ⟨old, hm, ?_⟩, by simp⟩
        exact if_pos (of_decide_eq_true named)
      simp only [setChild, if_pos there, if_pos still, List.map_map]
      refine congrArg directory (List.map_congr_left fun old _ => ?_)
      rw [Function.comp_apply]
      split <;> simp
    · have now : (children ++ [(name, child)]).any (·.1 = name) = true := by simp
      have others : (children.map fun old => if old.1 = name then (name, child') else old) = children := by
        refine (List.map_congr_left fun old hm => if_neg fun named => ?_).trans (List.map_id' children)
        exact there (List.any_eq_true.mpr ⟨old, hm, decide_eq_true named⟩)
      simp only [setChild, if_neg there, if_pos now, List.map_append, others, List.map_singleton, if_true]

/-- Of two entries set at the same place the second one stays. -/
theorem set_set (entry : Entry) (names : List String) (new new' : Entry) :
    (entry.set names new).set names new' = entry.set names new' := by
  induction names generalizing entry with
  | nil => rfl
  | cons name rest ih =>
    cases entry with
    | file content => cases rest <;> rfl
    | directory children =>
      have own (child : Entry) : ((directory children).setChild name child).child? name = some child := by
        rw [child?_setChild, if_pos rfl]
      cases found : (directory children).child? name with
      | some child =>
        simp only [set, found, own]
        rw [setChild_setChild, ih]
      | none =>
        cases rest with
        | nil => simp only [set, found, List.isEmpty_nil, if_true, own, setChild_setChild]
        | cons next others => simp [set, found]

theorem Distinct.setChild {children : List (String × Entry)} (h : (Entry.directory children).Distinct) (name : String)
    {child : Entry} (own : child.Distinct) : ((Entry.directory children).setChild name child).Distinct := by
  obtain ⟨names, below⟩ : (children.map (·.1)).Nodup ∧ ∀ child ∈ children, child.2.Distinct := by
    cases h with
    | directory names below => exact ⟨names, below⟩
  unfold Entry.setChild
  dsimp only
  split
  · refine directory ?_ fun new hn => ?_
    · have same : (children.map fun old => if old.1 = name then (name, child) else old).map (·.1) =
          children.map (·.1) := by
        rw [List.map_map]
        refine List.map_congr_left fun old _ => ?_
        rw [Function.comp_apply]
        split
        · rename_i named
          exact named.symm
        · rfl
      rwa [same]
    · obtain ⟨old, hm, rfl⟩ := List.mem_map.mp hn
      split
      · exact own
      · exact below old hm
  · rename_i fresh
    refine directory ?_ fun new hn => ?_
    · rw [List.map_append, List.map_singleton]
      refine List.nodup_append.mpr ⟨names, List.pairwise_singleton _ _, fun a ha b hb same => fresh ?_⟩
      obtain ⟨old, hm, rfl⟩ := List.mem_map.mp ha
      exact List.any_eq_true.mpr ⟨old, hm, decide_eq_true (same.trans (List.mem_singleton.mp hb))⟩
    · rcases List.mem_append.mp hn with hm | hm
      · exact below new hm
      · exact List.mem_singleton.mp hm ▸ own

/-- Setting an entry gives no directory two entries of the same name. -/
theorem Distinct.set {tree new : Entry} (h : tree.Distinct) (own : new.Distinct) (names : List String) :
    (tree.set names new).Distinct := by
  induction names generalizing tree with
  | nil => exact own
  | cons name rest ih =>
    cases tree with
    | file content => cases rest <;> exact h
    | directory children =>
      rw [Entry.set]
      cases found : (Entry.directory children).child? name with
      | some child =>
        have there : (Entry.directory children).get? [name] = some child := by
          rw [Entry.get?, found]
          rfl
        exact h.setChild name (ih (h.get? there))
      | none =>
        dsimp only
        split
        · exact h.setChild name own
        · exact h

/-- An entry with nothing in it. -/
def IsLeaf (entry : Entry) : Prop :=
  ∀ name rest, entry.nodeAt? (name :: rest) = none

theorem isLeaf_file (content : List UInt8) : (file content).IsLeaf := fun _ _ => rfl

theorem isLeaf_directory_nil : (directory []).IsLeaf := fun _ _ => rfl

/-- Setting an entry with nothing in it where there is no directory changes what stands at one place only. -/
theorem nodeAt?_set_leaf {entry : Entry} {place : List String} (parent : entry.nodeAt? place = some .directory)
    {name : String} (free : entry.nodeAt? (place ++ [name]) ≠ some .directory) {new : Entry} (leaf : new.IsLeaf)
    (other : List String) :
    (entry.set (place ++ [name]) new).nodeAt? other =
      if other = place ++ [name] then some new.node else entry.nodeAt? other := by
  rw [nodeAt?_set parent]
  split
  · rename_i below
    obtain ⟨rest, rfl⟩ := below
    cases rest with
    | nil => simp [nodeAt?_nil]
    | cons next rest =>
      -- Below the new entry there is nothing, and there was nothing below what stood there before.
      have before : entry.nodeAt? (place ++ [name] ++ next :: rest) = none := by
        rw [nodeAt?, get?_append]
        cases found : entry.get? (place ++ [name]) with
        | none => rfl
        | some old =>
          cases old with
          | file content => rfl
          | directory children => exact absurd (nodeAt?_eq_directory_iff.mpr ⟨children, found⟩) free
      rw [if_neg (by simp), before]
      simpa using leaf next rest
  · rename_i apart
    rw [if_neg]
    rintro rfl
    exact apart List.prefix_rfl

end Entry

end SolidityLint
