import SolidityLint.CheckResult

/-! Groups of findings. While findings are sorted into groups, the group of a path holds the findings of that path so
    far, the last one first, and every path with a finding has a group (`Grouped`). What is left at the end are the
    groups that are not empty, with the first finding first. -/

namespace SolidityLint

namespace CheckResult

theorem map_fst_addToGroup (groups : List (RawText × List Finding)) (finding : Finding) :
    (addToGroup groups finding).map (·.1) =
      if groups.any (·.1 = finding.path) then groups.map (·.1) else groups.map (·.1) ++ [finding.path] := by
  unfold addToGroup
  split
  · rw [List.map_map]
    refine List.map_congr_left fun group _ => ?_
    rw [Function.comp_apply]
    split <;> rfl
  · rw [List.map_append, List.map_singleton]

/-- What holds of the groups after some findings. -/
structure Grouped (groups : List (RawText × List Finding)) (seen : List Finding) : Prop where
  own : ∀ group ∈ groups, group.2.reverse = seen.filter (·.path = group.1)
  known : ∀ finding ∈ seen, finding.path ∈ groups.map (·.1)

namespace Grouped

variable {groups : List (RawText × List Finding)} {seen : List Finding}

theorem start (paths : List RawText) : Grouped (paths.map (·, [])) [] where
  own group hg := by
    obtain ⟨path, -, rfl⟩ := List.mem_map.mp hg
    rfl
  known := nofun

theorem addToGroup (h : Grouped groups seen) (finding : Finding) :
    Grouped (addToGroup groups finding) (seen ++ [finding]) where
  own group hg := by
    unfold CheckResult.addToGroup at hg
    split at hg
    · obtain ⟨old, hm, rfl⟩ := List.mem_map.mp hg
      split
      · rename_i same
        simp [h.own old hm, same]
      · rename_i different
        simp [h.own old hm, Ne.symm different]
    · -- The path starts a group; no finding before was of it.
      rename_i missing
      have absent : ∀ group ∈ groups, group.1 ≠ finding.path := fun group hm same =>
        missing (List.any_eq_true.mpr ⟨group, hm, decide_eq_true same⟩)
      rcases List.mem_append.mp hg with hg | hg
      · simp [h.own group hg, Ne.symm (absent group hg)]
      · obtain rfl := List.mem_singleton.mp hg
        have none : seen.filter (·.path = finding.path) = [] := by
          refine List.filter_eq_nil_iff.mpr fun other ho same => ?_
          obtain ⟨group, hm, hp⟩ := List.mem_map.mp (h.known other ho)
          exact absent group hm (hp.trans (of_decide_eq_true same))
        simp [none]
  known other ho := by
    rw [map_fst_addToGroup]
    split
    · rename_i there
      rcases List.mem_append.mp ho with ho | ho
      · exact h.known other ho
      · obtain rfl := List.mem_singleton.mp ho
        obtain ⟨group, hm, same⟩ := List.any_eq_true.mp there
        exact List.mem_map.mpr ⟨group, hm, of_decide_eq_true same⟩
    · rcases List.mem_append.mp ho with ho | ho
      · exact List.mem_append_left _ (h.known other ho)
      · obtain rfl := List.mem_singleton.mp ho
        exact List.mem_append_right _ List.mem_cons_self

theorem foldl (h : Grouped groups seen) (findings : List Finding) :
    Grouped (findings.foldl CheckResult.addToGroup groups) (seen ++ findings) := by
  induction findings generalizing groups seen with
  | nil => simpa using h
  | cons finding rest ih => simpa using ih (h.addToGroup finding)

end Grouped

/-- The group of a path holds the findings of that path in their order; only paths with findings have a group. -/
theorem mem_groups_iff (result : CheckResult) (path : RawText) (findings : List Finding) :
    (path, findings) ∈ result.groups ↔ findings ≠ [] ∧ findings = result.findings.filter (·.path = path) := by
  have grouped : Grouped (result.findings.foldl CheckResult.addToGroup ((distinct result.files).map (·, [])))
      result.findings := (Grouped.start _).foldl result.findings
  unfold groups
  constructor
  · intro h
    obtain ⟨⟨own, reversed⟩, hm, he⟩ := List.mem_map.mp h
    obtain ⟨hm, nonempty⟩ := List.mem_filter.mp hm
    obtain ⟨rfl, rfl⟩ := Prod.mk.inj he
    refine ⟨fun empty => ?_, grouped.own _ hm⟩
    rw [List.reverse_eq_nil_iff.mp empty] at nonempty
    cases nonempty
  · rintro ⟨nonempty, rfl⟩
    obtain ⟨finding, hf⟩ := List.exists_mem_of_ne_nil _ nonempty
    obtain ⟨hf, same⟩ := List.mem_filter.mp hf
    obtain ⟨group, hm, hp⟩ := List.mem_map.mp (grouped.known finding hf)
    obtain rfl := hp.trans (of_decide_eq_true same)
    have own := grouped.own group hm
    refine List.mem_map.mpr ⟨group, List.mem_filter.mpr ⟨hm, ?_⟩, congrArg (group.1, ·) own⟩
    cases empty : group.2 with
    | nil =>
      rw [empty] at own
      exact absurd own.symm nonempty
    | cons first rest => rfl

/-! ### Every finding is in one group

Paths of groups are distinct, so a finding goes into a single group. -/

theorem nodup_distinct (paths : List RawText) : (distinct paths).Nodup := by
  unfold distinct
  suffices h : ∀ done : List RawText, done.Nodup →
      (paths.foldl (fun done path => if done.contains path then done else done ++ [path]) done).Nodup from
    h [] .nil
  induction paths with
  | nil => exact fun _ => id
  | cons path rest ih =>
    intro done hd
    rw [List.foldl_cons]
    refine ih _ ?_
    split
    · exact hd
    · rename_i fresh
      refine List.nodup_append.mpr ⟨hd, List.pairwise_singleton _ path, fun a ha b hb same => fresh ?_⟩
      rw [← List.mem_singleton.mp hb, ← same]
      exact List.contains_iff_mem.mpr ha

theorem nodup_addToGroup {groups : List (RawText × List Finding)} (h : (groups.map (·.1)).Nodup) (finding : Finding) :
    ((addToGroup groups finding).map (·.1)).Nodup := by
  rw [map_fst_addToGroup]
  split
  · exact h
  · rename_i fresh
    refine List.nodup_append.mpr ⟨h, List.pairwise_singleton _ _, fun a ha b hb same => fresh ?_⟩
    obtain ⟨group, hg, rfl⟩ := List.mem_map.mp ha
    exact List.any_eq_true.mpr ⟨group, hg, decide_eq_true (same.trans (List.mem_singleton.mp hb))⟩

theorem addToGroup_perm {groups : List (RawText × List Finding)} (h : (groups.map (·.1)).Nodup) (finding : Finding) :
    ((addToGroup groups finding).flatMap (·.2)).Perm (finding :: groups.flatMap (·.2)) := by
  unfold addToGroup
  split
  · rename_i there
    induction groups with
    | nil => simp at there
    | cons group rest ih =>
      obtain ⟨fresh, distinct⟩ := List.nodup_cons.mp h
      rw [List.map_cons]
      by_cases same : group.1 = finding.path
      · -- No later group has the path.
        have later : (rest.map fun group => if group.1 = finding.path then (group.1, finding :: group.2) else group) =
            rest := by
          refine (List.map_congr_left fun other ho => if_neg fun again => ?_).trans (List.map_id' rest)
          exact fresh (List.mem_map.mpr ⟨other, ho, again.trans same.symm⟩)
        rw [if_pos same, later]
        exact .refl _
      · have there : rest.any (·.1 = finding.path) = true := by simpa [same] using there
        rw [if_neg same, List.flatMap_cons, List.flatMap_cons]
        exact ((ih distinct there).append_left group.2).trans List.perm_middle
  · rw [List.flatMap_append]
    exact List.perm_append_comm

theorem foldl_addToGroup_perm {groups : List (RawText × List Finding)} (h : (groups.map (·.1)).Nodup)
    (findings : List Finding) :
    ((findings.foldl addToGroup groups).flatMap (·.2)).Perm (findings ++ groups.flatMap (·.2)) := by
  induction findings generalizing groups with
  | nil => exact .refl _
  | cons finding rest ih =>
    refine (ih (nodup_addToGroup h finding)).trans ?_
    exact ((addToGroup_perm h finding).append_left rest).trans List.perm_middle

/-- Groups that are dropped are empty, and the order inside a group does not count. -/
theorem flatMap_filter_reverse_perm (groups : List (RawText × List Finding)) :
    (((groups.filter fun group => !group.2.isEmpty).map fun group => (group.1, group.2.reverse)).flatMap
      (·.2)).Perm (groups.flatMap (·.2)) := by
  induction groups with
  | nil => exact .refl _
  | cons group rest ih =>
    obtain ⟨path, findings⟩ := group
    cases findings with
    | nil => simpa using ih
    | cons first others =>
      rw [List.filter_cons_of_pos rfl, List.map_cons, List.flatMap_cons, List.flatMap_cons]
      exact (List.reverse_perm _).append ih

theorem flatMap_groups_perm (result : CheckResult) : (result.groups.flatMap (·.2)).Perm result.findings := by
  have start : (((distinct result.files).map (·, ([] : List Finding))).map (·.1)).Nodup := by
    simpa [Function.comp_def] using nodup_distinct result.files
  have none : ((distinct result.files).map (·, ([] : List Finding))).flatMap (·.2) = [] := by
    simp [List.flatMap_map]
  have all := foldl_addToGroup_perm start result.findings
  rw [none, List.append_nil] at all
  exact (flatMap_filter_reverse_perm _).trans all

theorem groups_eq_nil_iff (result : CheckResult) : result.groups = [] ↔ result.findings = [] := by
  constructor
  · intro none
    have all := flatMap_groups_perm result
    rw [none] at all
    exact List.nil_perm.mp all
  · intro none
    refine List.eq_nil_iff_forall_not_mem.mpr fun ⟨path, findings⟩ hg => ?_
    obtain ⟨nonempty, own⟩ := (mem_groups_iff result path findings).mp hg
    rw [none] at own
    exact nonempty own

/-! ### The order of groups

Groups come and go by their paths like a list of distinct paths: first those of the files, then those of the findings
that are of no file. -/

/-- Where an item adds its key at the end if it is new, and keeps the keys if it is there, the keys come and go like a
    list of distinct paths. -/
theorem map_fst_foldl_of_step {α β : Type} {add : List (RawText × α) → β → List (RawText × α)} {key : β → RawText}
    (step : ∀ done item, (add done item).map (·.1) =
      if done.any (·.1 = key item) then done.map (·.1) else done.map (·.1) ++ [key item])
    (done : List (RawText × α)) (items : List β) :
    (items.foldl add done).map (·.1) = (items.map key).foldl
      (fun done path => if done.contains path then done else done ++ [path]) (done.map (·.1)) := by
  induction items generalizing done with
  | nil => rfl
  | cons item rest ih =>
    have there : (done.map (·.1)).contains (key item) = done.any (·.1 = key item) := by
      rw [Bool.eq_iff_iff, List.contains_iff_mem, List.mem_map, List.any_eq_true]
      simp
    rw [List.foldl_cons, ih, step, List.map_cons, List.foldl_cons, there]

theorem map_fst_foldl_addToGroup (groups : List (RawText × List Finding)) (findings : List Finding) :
    (findings.foldl addToGroup groups).map (·.1) = (findings.map (·.path)).foldl
      (fun done path => if done.contains path then done else done ++ [path]) (groups.map (·.1)) :=
  map_fst_foldl_of_step map_fst_addToGroup groups findings

/-- The groups of a result: for each path the findings of that path, where there are some. -/
theorem groups_eq (result : CheckResult) :
    result.groups = ((distinct (result.files ++ result.findings.map (·.path))).map fun path =>
      (path, result.findings.filter (·.path = path))).filter fun group => !group.2.isEmpty := by
  have grouped : Grouped (result.findings.foldl CheckResult.addToGroup ((distinct result.files).map (·, [])))
      result.findings := (Grouped.start _).foldl result.findings
  have paths : (result.findings.foldl CheckResult.addToGroup ((distinct result.files).map (·, []))).map (·.1) =
      distinct (result.files ++ result.findings.map (·.path)) := by
    rw [map_fst_foldl_addToGroup, List.map_map, Function.comp_def, List.map_id', distinct, distinct, List.foldl_append]
  have whole : result.findings.foldl CheckResult.addToGroup ((distinct result.files).map (·, [])) =
      (distinct (result.files ++ result.findings.map (·.path))).map fun path =>
        (path, (result.findings.filter (·.path = path)).reverse) := by
    rw [← paths, List.map_map]
    refine ((List.map_congr_left fun group hg => ?_).trans (List.map_id' _)).symm
    rw [Function.comp_apply, ← grouped.own group hg, List.reverse_reverse]
  unfold groups
  dsimp only
  rw [whole]
  simp [List.filter_map, Function.comp_def]

theorem foldl_distinct_of_nodup {done paths : List RawText} (h : (done ++ paths).Nodup) :
    paths.foldl (fun done path => if done.contains path then done else done ++ [path]) done = done ++ paths := by
  induction paths generalizing done with
  | nil => exact (List.append_nil done).symm
  | cons path rest ih =>
    have absent : ¬done.contains path = true := fun there =>
      (List.nodup_append.mp h).2.2 path (List.contains_iff_mem.mp there) path List.mem_cons_self rfl
    rw [List.foldl_cons, if_neg absent, ih (by simpa using h), List.append_assoc]
    rfl

theorem foldl_distinct_of_subset {done paths : List RawText} (h : ∀ path ∈ paths, path ∈ done) :
    paths.foldl (fun done path => if done.contains path then done else done ++ [path]) done = done := by
  induction paths with
  | nil => rfl
  | cons path rest ih =>
    obtain ⟨own, others⟩ := List.forall_mem_cons.mp h
    rw [List.foldl_cons, if_pos (List.contains_iff_mem.mpr own)]
    exact ih others

/-- The groups of a result whose findings are all of its files, which are distinct. -/
theorem groups_eq_of_nodup {result : CheckResult} (files : result.files.Nodup)
    (known : ∀ finding ∈ result.findings, finding.path ∈ result.files) :
    result.groups = (result.files.map fun path =>
      (path, result.findings.filter (·.path = path))).filter fun group => !group.2.isEmpty := by
  have paths : distinct (result.files ++ result.findings.map (·.path)) = result.files := by
    have own : distinct result.files = result.files :=
      foldl_distinct_of_nodup (show ([] ++ result.files).Nodup from files)
    rw [distinct, List.foldl_append, ← distinct, own]
    exact foldl_distinct_of_subset (List.forall_mem_map.mpr known)
  rw [groups_eq, paths]

end CheckResult

end SolidityLint
