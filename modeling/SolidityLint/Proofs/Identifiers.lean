import SolidityLint.Rule
import SolidityLint.Text.Split

/-! Identifiers of rules. An identifier is the key of the category, a dot, and the key of the rule. No key has a dot,
    so an identifier tells its rule, and what stands in front of the dot tells the category. -/

namespace SolidityLint

theorem Category.key_injective {a b : Category} (h : a.key = b.key) : a = b := by
  cases a <;> cases b <;> first | rfl | simp [Category.key] at h

theorem Category.dot_notMem_key (category : Category) : '.' ∉ category.key.toList := by
  cases category <;> decide

theorem Rule.key_injective {a b : Rule} (h : a.key = b.key) : a = b := by
  cases a <;> cases b <;> first | rfl | simp [Rule.key] at h

theorem Rule.toList_id (rule : Rule) : rule.id.toList = rule.category.key.toList ++ '.' :: rule.key.toList := by
  simp [Rule.id]

theorem Rule.id_injective {a b : Rule} (h : a.id = b.id) : a = b := by
  have parts := congrArg String.toList h
  rw [Rule.toList_id, Rule.toList_id] at parts
  obtain ⟨-, keys⟩ := Text.cut_unique a.category.dot_notMem_key b.category.dot_notMem_key parts
  exact Rule.key_injective (String.toList_inj.mp keys)

@[simp] theorem Rule.id_inj {a b : Rule} : a.id = b.id ↔ a = b :=
  ⟨Rule.id_injective, congrArg Rule.id⟩

theorem Rule.code_injective {a b : Rule} (h : a.code = b.code) : a = b := by
  cases a <;> cases b <;> first | rfl | simp [Rule.code] at h

@[simp] theorem Rule.code_inj {a b : Rule} : a.code = b.code ↔ a = b :=
  ⟨Rule.code_injective, congrArg Rule.code⟩

/-- The identifiers and codes of all rules. -/
example : Rule.all.map (fun rule => (rule.id, rule.code)) =
    [("structure.spdxLicense", "MissingSPDX"), ("structure.spdxAtTop", "SPDXNotAtTop"),
      ("structure.pragmaAfterLicense", "PragmaBeforeLicense"), ("imports.namedOnly", "NamedImportRequired"),
      ("imports.alphabetical", "ImportsNotAlphabetical"), ("naming.contracts", "ContractNaming"),
      ("naming.functions", "FunctionNaming"),
      ("naming.privateInternalFunctions", "PrivateInternalFunctionNaming"),
      ("naming.functionArguments", "FunctionArgumentNaming"), ("naming.events", "EventNaming"),
      ("naming.eventsPastTense", "EventPastTense"), ("naming.constants", "ConstantNaming"),
      ("layout.maxLineLength", "MaxLineLength"), ("layout.noTabs", "NoTabs"),
      ("layout.noTrailingWhitespace", "TrailingWhitespace")] := by
  decide

/-- The identifiers that start with the key of a category and a dot are those of its rules. -/
theorem Category.isPrefixOf_id_iff (category : Category) (rule : Rule) :
    (category.key ++ ".").toList.isPrefixOf rule.id.toList = true ↔ rule.category = category := by
  rw [List.isPrefixOf_iff_prefix, Rule.toList_id]
  constructor
  · rintro ⟨rest, h⟩
    rw [String.toList_append, List.append_assoc] at h
    obtain ⟨keys, -⟩ := Text.cut_unique category.dot_notMem_key rule.category.dot_notMem_key h
    exact Category.key_injective (String.toList_inj.mp keys.symm)
  · rintro rfl
    exact ⟨rule.key.toList, by simp⟩

end SolidityLint
