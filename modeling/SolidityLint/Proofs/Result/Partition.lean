import Mathlib.Algebra.GroupWithZero.Nat
import Mathlib.Data.List.Basic
import Mathlib.Data.List.Induction
import SolidityLint.Proofs.Groups

/-! Groups as a partition. The findings of a result are parted by their paths without a change in their order, and the
    groups stand in the order of the files; groups of paths that are no files follow in the order in which their first
    findings came. -/

namespace SolidityLint

namespace CheckResult

/-! ### The first places of paths -/

theorem distinct_append_singleton (paths : List RawText) (path : RawText) :
    distinct (paths ++ [path]) = if path ∈ distinct paths then distinct paths else distinct paths ++ [path] := by
  rw [distinct, List.foldl_append, ← distinct, List.foldl_cons, List.foldl_nil]
  simp only [List.contains_iff_mem]

theorem mem_distinct_iff {path : RawText} {paths : List RawText} : path ∈ distinct paths ↔ path ∈ paths := by
  induction paths using List.reverseRecOn with
  | nil => exact Iff.rfl
  | append_singleton paths last ih =>
    rw [distinct_append_singleton]
    split
    · rename_i there
      rw [List.mem_append, List.mem_singleton, ih]
      refine ⟨Or.inl, ?_⟩
      rintro (old | rfl)
      · exact old
      · exact ih.mp there
    · rw [List.mem_append, List.mem_append, ih]

/-- Distinct paths come in the order of their first places. -/
theorem pairwise_idxOf_distinct (paths : List RawText) :
    (distinct paths).Pairwise fun a b => paths.idxOf a < paths.idxOf b := by
  induction paths using List.reverseRecOn with
  | nil => exact List.Pairwise.nil
  | append_singleton paths last ih =>
    have kept {path : RawText} (hp : path ∈ distinct paths) : (paths ++ [last]).idxOf path = paths.idxOf path :=
      List.idxOf_append_of_mem (mem_distinct_iff.mp hp)
    have earlier : (distinct paths).Pairwise fun a b => (paths ++ [last]).idxOf a < (paths ++ [last]).idxOf b := by
      refine ih.imp_of_mem fun ha hb before => ?_
      rwa [kept ha, kept hb]
    rw [distinct_append_singleton]
    split
    · exact earlier
    · rename_i fresh
      refine List.pairwise_append.mpr ⟨earlier, List.pairwise_singleton _ last, fun path hp other ho => ?_⟩
      obtain rfl := List.mem_singleton.mp ho
      rw [kept hp, List.idxOf_append_of_notMem fun old => fresh (mem_distinct_iff.mpr old)]
      have inside : paths.idxOf path < paths.length := List.idxOf_lt_length_of_mem (mem_distinct_iff.mp hp)
      omega

/-! ### The order of groups -/

/-- Whether the group of a path comes before that of another: files come in the order of their first places, and
    before all other paths; those come in the order of their first findings. -/
def Precedes (result : CheckResult) (path other : RawText) : Prop :=
  if path ∈ result.files then other ∈ result.files → result.files.idxOf path < result.files.idxOf other
  else other ∉ result.files ∧
    (result.findings.map (·.path)).idxOf path < (result.findings.map (·.path)).idxOf other

theorem precedes_of_idxOf_lt {result : CheckResult} {path other : RawText}
    (h : (result.files ++ result.findings.map (·.path)).idxOf path <
      (result.files ++ result.findings.map (·.path)).idxOf other) : result.Precedes path other := by
  unfold Precedes
  split
  · rename_i file
    intro file'
    rwa [List.idxOf_append_of_mem file, List.idxOf_append_of_mem file'] at h
  · rename_i foreign
    rw [List.idxOf_append_of_notMem foreign] at h
    by_cases file' : other ∈ result.files
    · rw [List.idxOf_append_of_mem file'] at h
      have inside : result.files.idxOf other < result.files.length := List.idxOf_lt_length_of_mem file'
      omega
    · rw [List.idxOf_append_of_notMem file'] at h
      exact ⟨file', by omega⟩

/-- The paths of groups are some of all paths of a result, each once. -/
theorem map_fst_groups_sublist (result : CheckResult) :
    (result.groups.map (·.1)).Sublist (distinct (result.files ++ result.findings.map (·.path))) := by
  have sublist := (List.filter_sublist (p := fun group : RawText × List Finding => !group.2.isEmpty)
    (l := (distinct (result.files ++ result.findings.map (·.path))).map fun path =>
      (path, result.findings.filter (·.path = path)))).map (·.1)
  rwa [← groups_eq, List.map_map, Function.comp_def, List.map_id'] at sublist

theorem nodup_map_fst_groups (result : CheckResult) : (result.groups.map (·.1)).Nodup :=
  result.map_fst_groups_sublist.nodup (nodup_distinct _)

theorem pairwise_precedes_groups (result : CheckResult) : (result.groups.map (·.1)).Pairwise result.Precedes :=
  ((pairwise_idxOf_distinct _).imp precedes_of_idxOf_lt).sublist result.map_fst_groups_sublist

/-! ### The groups of a result -/

theorem mem_map_fst_groups_iff {result : CheckResult} {path : RawText} :
    path ∈ result.groups.map (·.1) ↔ path ∈ result.findings.map (·.path) := by
  constructor
  · intro h
    obtain ⟨group, hg, rfl⟩ := List.mem_map.mp h
    obtain ⟨nonempty, own⟩ := (mem_groups_iff result group.1 group.2).mp hg
    obtain ⟨finding, hf⟩ := List.exists_mem_of_ne_nil _ nonempty
    rw [own] at hf
    obtain ⟨hf, same⟩ := List.mem_filter.mp hf
    exact List.mem_map.mpr ⟨finding, hf, of_decide_eq_true same⟩
  · intro h
    obtain ⟨finding, hf, rfl⟩ := List.mem_map.mp h
    refine List.mem_map.mpr ⟨_, (mem_groups_iff result finding.path _).mpr ⟨?_, rfl⟩, rfl⟩
    exact List.ne_nil_of_mem (List.mem_filter.mpr ⟨hf, decide_eq_true rfl⟩)

/-- A finding is in the group of its path and in no other. -/
theorem existsUnique_group {result : CheckResult} {finding : Finding} (h : finding ∈ result.findings) :
    ∃! group, group ∈ result.groups ∧ finding ∈ group.2 := by
  have own : finding ∈ result.findings.filter (·.path = finding.path) :=
    List.mem_filter.mpr ⟨h, decide_eq_true rfl⟩
  refine ⟨(finding.path, _), ⟨(mem_groups_iff ..).mpr ⟨List.ne_nil_of_mem own, rfl⟩, own⟩, ?_⟩
  rintro ⟨path, findings⟩ ⟨hg, hf⟩
  obtain ⟨-, rfl⟩ := (mem_groups_iff result path findings).mp hg
  obtain rfl : finding.path = path := of_decide_eq_true (List.mem_filter.mp hf).2
  rfl

end CheckResult

open CheckResult in
/-- The groups of a result part its findings. Their paths are distinct and are those of the findings; the group of a
    path has the findings of that path in their order and is not empty. So every finding is in one group, as often as
    it was found, and the sizes of the groups add up to the number of findings. The groups come in the order of the
    files, and those of other paths behind them in the order of the findings. -/
theorem groups_partition (result : CheckResult) :
    (result.groups.map (·.1)).Nodup ∧
    (∀ path, path ∈ result.groups.map (·.1) ↔ path ∈ result.findings.map (·.path)) ∧
    (∀ group ∈ result.groups, group.2 ≠ [] ∧ group.2 = result.findings.filter (·.path = group.1)) ∧
    (∀ finding ∈ result.findings, ∃! group, group ∈ result.groups ∧ finding ∈ group.2) ∧
    (result.groups.flatMap (·.2)).Perm result.findings ∧
    (result.groups.map fun group => group.2.length).sum = result.findings.length ∧
    (result.groups.map (·.1)).Pairwise result.Precedes := by
  refine ⟨result.nodup_map_fst_groups, fun path => mem_map_fst_groups_iff, fun group hg => ?_,
    fun finding hf => existsUnique_group hf, result.flatMap_groups_perm, ?_, result.pairwise_precedes_groups⟩
  · exact (mem_groups_iff result group.1 group.2).mp hg
  · rw [← result.flatMap_groups_perm.length_eq, List.length_flatMap]

open CheckResult in
/-- A file that comes twice, one without findings, and findings of a path that is no file. -/
theorem groups_partition_foreign_path :
    let a : RawText := "a.sol"
    let b : RawText := "b.sol"
    let c : RawText := "c.sol"
    let foreign : RawText := "x.sol"
    let finding (path : RawText) (line : Int) : Finding := ⟨path, line, "layout.noTabs", "NoTabs", "Tab", .error⟩
    let result : CheckResult := ⟨[b, a, c, b], [finding foreign 1, finding a 2, finding b 3, finding foreign 4]⟩
    result.groups = [(b, [finding b 3]), (a, [finding a 2]), (foreign, [finding foreign 1, finding foreign 4])] ∧
      c ∉ result.groups.map (·.1) ∧
      (∃! group, group ∈ result.groups ∧ finding foreign 4 ∈ group.2) ∧
      (result.groups.map fun group => group.2.length).sum = result.findings.length ∧
      (result.groups.map (·.1)).Pairwise result.Precedes := by
  intro a b c foreign finding result
  obtain ⟨-, paths, -, one, -, sizes, order⟩ := groups_partition result
  have clean : c ∉ result.findings.map (·.path) := by decide +kernel
  have found : finding foreign 4 ∈ result.findings := by decide +kernel
  exact ⟨by decide +kernel, fun there => clean ((paths c).mp there), one _ found, sizes, order⟩

end SolidityLint
