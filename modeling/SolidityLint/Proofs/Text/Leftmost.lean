import SolidityLint.Text.Lines
import SolidityLint.Text.Occurrences

/-! Occurrences by their offsets. A search takes the first place where something sits and goes on where that ends, so
    what it takes does not overlap, and whatever it leaves out begins inside something that it takes. -/

namespace SolidityLint.Text

variable {α β : Type} {Sits Sits' : Nat → α → Prop} {width : α → Nat} {start : Nat} {spans others : List (Nat × α)}

/-- What a search from an offset on takes: each at the least offset where something sits, from the end of the one
    before on. -/
inductive Leftmost (Sits : Nat → α → Prop) (width : α → Nat) : Nat → List (Nat × α) → Prop
  | none {start : Nat} (never : ∀ q, start ≤ q → ∀ other, ¬Sits q other) : Leftmost Sits width start []
  | next {start p : Nat} {found : α} {rest : List (Nat × α)} (reached : start ≤ p) (sits : Sits p found)
      (least : ∀ q, start ≤ q → q < p → ∀ other, ¬Sits q other) (more : Leftmost Sits width (p + width found) rest) :
      Leftmost Sits width start ((p, found) :: rest)

namespace Leftmost

theorem start_le (h : Leftmost Sits width start spans) : ∀ span ∈ spans, start ≤ span.1 := by
  induction h with
  | none => exact fun span hm => nomatch hm
  | next reached sits least more ih =>
    refine List.forall_mem_cons.mpr ⟨reached, fun span hm => ?_⟩
    have := ih span hm
    omega

/-- What is taken does not overlap. -/
theorem pairwise (h : Leftmost Sits width start spans) : spans.Pairwise fun a b => a.1 + width a.2 ≤ b.1 := by
  induction h with
  | none => exact List.Pairwise.nil
  | next reached sits least more ih => exact List.pairwise_cons.mpr ⟨more.start_le, ih⟩

/-- Of two spans that are taken, one ends before the other begins. -/
theorem apart (h : Leftmost Sits width start spans) {a b : Nat × α} (ha : a ∈ spans) (hb : b ∈ spans) :
    a = b ∨ a.1 + width a.2 ≤ b.1 ∨ b.1 + width b.2 ≤ a.1 := by
  induction h with
  | none => cases ha
  | @next start p found rest reached sits least more ih =>
    rcases List.mem_cons.mp ha with rfl | ha
    · rcases List.mem_cons.mp hb with rfl | hb
      · exact Or.inl rfl
      · exact Or.inr (Or.inl (more.start_le b hb))
    · rcases List.mem_cons.mp hb with rfl | hb
      · exact Or.inr (Or.inr (more.start_le a ha))
      · exact ih ha hb

/-- Everything that is taken sits where it is taken. -/
theorem sits (h : Leftmost Sits width start spans) : ∀ span ∈ spans, Sits span.1 span.2 := by
  induction h with
  | none => exact fun span hm => nomatch hm
  | next reached sits least more ih => exact List.forall_mem_cons.mpr ⟨sits, ih⟩

/-- Whatever sits somewhere begins inside something that is taken. -/
theorem covers (h : Leftmost Sits width start spans) {q : Nat} {other : α} (behind : start ≤ q) (there : Sits q other) :
    ∃ span ∈ spans, span.1 ≤ q ∧ q < span.1 + width span.2 := by
  induction h with
  | none never => exact absurd there (never q behind other)
  | @next start p found rest reached sits least more ih =>
    by_cases before : q < p
    · exact absurd there (least q behind before other)
    · by_cases inside : q < p + width found
      · exact ⟨(p, found), List.mem_cons_self, Nat.le_of_not_lt before, inside⟩
      · obtain ⟨span, hm, bounds⟩ := ih (Nat.le_of_not_lt inside)
        exact ⟨span, List.mem_cons_of_mem _ hm, bounds⟩

/-- Two searches take the same, as far as what sits in one place agrees. -/
theorem map_eq_map (h : Leftmost Sits width start spans) (h' : Leftmost Sits width start others) {view : α → β}
    (agree : ∀ p one other, Sits p one → Sits p other → view one = view other ∧ width one = width other) :
    (spans.map fun span => (span.1, view span.2)) = others.map fun span => (span.1, view span.2) := by
  induction h generalizing others with
  | none never =>
    cases h' with
    | none => rfl
    | next reached sits => exact absurd sits (never _ reached _)
  | next reached sits least more ih =>
    cases h' with
    | none never => exact absurd sits (never _ reached _)
    | @next _ q _ _ reached' sits' least' more' =>
      have same : q = _ := Nat.le_antisymm (Nat.le_of_not_lt fun later => least' _ reached later _ sits)
        (Nat.le_of_not_lt fun later => least _ reached' later _ sits')
      subst same
      obtain ⟨seen, wide⟩ := agree _ _ _ sits sits'
      rw [List.map_cons, List.map_cons, seen, ih (wide ▸ more')]

/-- What a search takes is determined where only one thing can sit in a place. -/
theorem unique (h : Leftmost Sits width start spans) (h' : Leftmost Sits width start others)
    (single : ∀ p one other, Sits p one → Sits p other → one = other) : spans = others := by
  have agree (p : Nat) (one other : α) (there : Sits p one) (there' : Sits p other) :
      id one = id other ∧ width one = width other := by
    simp [single p one other there there']
  simpa using h.map_eq_map h' agree

/-- A search takes the same for another notion of what sits where, if that finds no other places. -/
theorem mono (h : Leftmost Sits width start spans) (weaker : ∀ p found, Sits p found → Sits' p found)
    (places : ∀ p found, Sits' p found → ∃ other, Sits p other) : Leftmost Sits' width start spans := by
  induction h with
  | none never =>
    refine .none fun q behind other there => ?_
    obtain ⟨found, there⟩ := places q other there
    exact never q behind found there
  | next reached sits least more ih =>
    refine .next reached (weaker _ _ sits) (fun q behind before other there => ?_) ih
    obtain ⟨found, there⟩ := places q other there
    exact least q behind before found there

/-- A search may begin earlier where nothing sits. -/
theorem earlier (h : Leftmost Sits width (start + 1) spans) (nothing : ∀ found, ¬Sits start found) :
    Leftmost Sits width start spans := by
  have later {q : Nat} {other : α} (behind : start ≤ q) (there : Sits q other) : start + 1 ≤ q := by
    rcases Nat.lt_or_eq_of_le behind with behind | rfl
    · exact behind
    · exact absurd there (nothing other)
  cases h with
  | none never => exact .none fun q behind other there => never q (later behind there) other there
  | next reached sits least more =>
    refine .next (Nat.le_of_succ_le reached) sits (fun q behind before other there => ?_) more
    exact least q (later behind there) before other there

end Leftmost

/-- The first thing that sits anywhere, and nothing if nothing does. -/
inductive First (Sits : Nat → α → Prop) : Option α → Prop
  | nowhere (never : ∀ q other, ¬Sits q other) : First Sits none
  | here {p : Nat} {found : α} (sits : Sits p found) (least : ∀ q < p, ∀ other, ¬Sits q other) : First Sits (some found)

namespace First

variable {first first' : Option α}

theorem zero {found : α} (h : Sits 0 found) : First Sits (some found) :=
  .here h fun _ early => absurd early (Nat.not_lt_zero _)

/-- The first thing from the front on is the first one behind it where nothing sits at the front. -/
theorem succ (h : First (fun p => Sits (p + 1)) first) (nothing : ∀ other, ¬Sits 0 other) : First Sits first := by
  cases h with
  | nowhere never =>
    refine .nowhere fun q other => ?_
    cases q with
    | zero => exact nothing other
    | succ q => exact never q other
  | here sits least =>
    refine .here sits fun q early other => ?_
    cases q with
    | zero => exact nothing other
    | succ q => exact least q (Nat.lt_of_succ_lt_succ early) other

theorem unique (h : First Sits first) (h' : First Sits first')
    (single : ∀ p one other, Sits p one → Sits p other → one = other) : first = first' := by
  cases h with
  | nowhere never =>
    cases h' with
    | nowhere => rfl
    | here sits' => exact absurd sits' (never _ _)
  | @here p _ sits least =>
    cases h' with
    | nowhere never => exact absurd sits (never _ _)
    | @here p' _ sits' least' =>
      obtain rfl : p = p' := Nat.le_antisymm (Nat.le_of_not_lt fun later => least _ later _ sits')
        (Nat.le_of_not_lt fun later => least' _ later _ sits)
      rw [single _ _ _ sits sits']

end First

/-! ### What a search through a text takes -/

/-- Whether a line starts behind a text. -/
def endsLine (before : List Char) : Bool :=
  before.getLast?.all (· = '\n')

/-- What is read at an offset of a text. -/
def FoundAt (read : Bool → List Char → Option α) (cs : List Char) (p : Nat) (found : α) : Prop :=
  read (endsLine (cs.take p)) (cs.drop p) = some found

theorem lineCount_append_singleton (before : List Char) (c : Char) :
    lineCount (before ++ [c]) = if c = '\n' then lineCount before + 1 else lineCount before := by
  by_cases newline : c = '\n'
  · simp [lineCount, newline]
  · simp [lineCount, newline]

section

variable {read : Bool → List Char → Option α}
  (narrow : ∀ {atLineStart cs found}, read atLineStart cs = some found → 0 < width found ∧ width found ≤ cs.length)

include narrow

/-- The search behind a part of a text, told on which line it stands and whether it starts one. -/
theorem exists_leftmost_occurrencesFrom (before rest : List Char) (skip : Nat) :
    ∃ spans, Leftmost (FoundAt read (before ++ rest)) width (before.length + skip) spans ∧
      occurrencesFrom read width (lineCount before) skip (endsLine before) rest =
        spans.map fun span => (lineCount ((before ++ rest).take span.1), span.2) := by
  induction rest generalizing before skip with
  | nil =>
    refine ⟨[], .none fun q behind found there => ?_, rfl⟩
    have bounds := narrow there
    rw [List.length_drop, List.length_append, List.length_nil] at bounds
    omega
  | cons c rest ih =>
    have text : before ++ c :: rest = before ++ [c] ++ rest := List.append_cons ..
    have ends : endsLine (before ++ [c]) = decide (c = '\n') := by simp [endsLine]
    have behind (skip : Nat) := ih (before ++ [c]) skip
    simp only [← text, ends, lineCount_append_singleton, List.length_append, List.length_singleton] at behind
    cases skip with
    | succ skip =>
      obtain ⟨spans, taken, same⟩ := behind skip
      exact ⟨spans, by rwa [Nat.add_comm skip, ← Nat.add_assoc], same⟩
    | zero =>
      have here (found : α) : FoundAt read (before ++ c :: rest) before.length found ↔
          read (endsLine before) (c :: rest) = some found := by
        rw [FoundAt, List.take_left, List.drop_left]
      rw [occurrencesFrom]
      cases found : read (endsLine before) (c :: rest) with
      | none =>
        obtain ⟨spans, taken, same⟩ := behind 0
        refine ⟨spans, taken.earlier fun other there => ?_, same⟩
        rw [here, found] at there
        cases there
      | some span =>
        have wide := (narrow found).1
        obtain ⟨spans, taken, same⟩ := behind (width span - 1)
        have after : before.length + 1 + (width span - 1) = before.length + width span := by omega
        rw [after] at taken
        refine ⟨(before.length, span) :: spans, .next (Nat.le_refl _) ((here span).mpr found) ?_ taken, ?_⟩
        · intro q late early
          omega
        · rw [List.map_cons, List.take_left, ← same]

/-- The occurrences of a pattern are what a search from the front of the text takes, with their lines. -/
theorem exists_leftmost_occurrences (cs : List Char) :
    ∃ spans, Leftmost (FoundAt read cs) width 0 spans ∧
      occurrences read width cs = spans.map fun span => (lineCount (cs.take span.1), span.2) :=
  exists_leftmost_occurrencesFrom narrow [] cs 0

/-- Where a pattern is read just where something sits, its occurrences are the one list of spans that a search takes. -/
theorem leftmost_occurrences {cs : List Char} (sits : ∀ p found, FoundAt read cs p found ↔ Sits p found) :
    ∃ spans, Leftmost Sits width 0 spans ∧ (∀ others, Leftmost Sits width 0 others → others = spans) ∧
      occurrences read width cs = spans.map fun span => (lineCount (cs.take span.1), span.2) := by
  obtain rfl : FoundAt read cs = Sits := funext fun p => funext fun found => propext (sits p found)
  obtain ⟨spans, taken, same⟩ := exists_leftmost_occurrences narrow cs
  refine ⟨spans, taken, fun others taken' => taken'.unique taken fun p one other there there' => ?_, same⟩
  exact Option.some.inj (there.symm.trans there')

end

end SolidityLint.Text
