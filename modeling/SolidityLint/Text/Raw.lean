/-! Text in which halves of surrogate pairs may stand by themselves, as escapes can spell them. -/

namespace SolidityLint

/-- A code point: a character, or half of a surrogate pair by itself, counted from U+D800. -/
inductive CodePoint where
  | char (c : Char)
  | half (offset : Fin 0x800)
  deriving DecidableEq, Inhabited

namespace CodePoint

def code : CodePoint → Nat
  | .char c => c.toNat
  | .half offset => 0xD800 + offset

def ofCode (code : Nat) : CodePoint :=
  if h : 0xD800 ≤ code ∧ code < 0xE000 then .half ⟨code - 0xD800, by omega⟩ else .char (Char.ofNat code)

/-- The character of a code point; the replacement character stands for half a pair. -/
def toChar : CodePoint → Char
  | .char c => c
  | .half _ => '\uFFFD'

end CodePoint

/-- Whether two runs of code points are the same. -/
def CodePoint.sameRun : List CodePoint → List CodePoint → Bool
  | [], [] => true
  | .char c :: rest, .char d :: other => c = d && sameRun rest other
  | .half i :: rest, .half j :: other => i = j && sameRun rest other
  | _, _ => false

theorem CodePoint.sameRun_iff : ∀ s t : List CodePoint, sameRun s t = true ↔ s = t
  | [], [] => by simp [sameRun]
  | .char c :: rest, .char d :: other => by simp [sameRun, sameRun_iff rest other]
  | .half i :: rest, .half j :: other => by simp [sameRun, sameRun_iff rest other]
  | .char _ :: _, .half _ :: _ => by simp [sameRun]
  | .half _ :: _, .char _ :: _ => by simp [sameRun]
  | [], _ :: _ => by simp [sameRun]
  | _ :: _, [] => by simp [sameRun]

/-- A text in which halves of surrogate pairs may stand by themselves. -/
structure RawText where
  points : List CodePoint
  deriving Inhabited

instance : DecidableEq RawText := fun s t =>
  decidable_of_iff (CodePoint.sameRun s.points t.points = true) (by
    cases s; cases t; simp [CodePoint.sameRun_iff])

namespace RawText

def ofChars (cs : List Char) : RawText :=
  ⟨cs.map .char⟩

def ofString (s : String) : RawText :=
  ofChars s.toList

instance : Coe String RawText := ⟨ofString⟩

def append (s t : RawText) : RawText :=
  ⟨s.points ++ t.points⟩

instance : Append RawText := ⟨append⟩

/-- The text with the replacement character for each half of a pair. -/
def chars (s : RawText) : List Char :=
  s.points.map CodePoint.toChar

/-- The text with the replacement character for each half of a pair. -/
def toString (s : RawText) : String :=
  String.ofList s.chars

instance : ToString RawText := ⟨toString⟩

def isEmpty (s : RawText) : Bool :=
  s.points.isEmpty

/-- Texts one after another. -/
def concat (parts : List RawText) : RawText :=
  ⟨parts.flatMap points⟩

def joined (separator : RawText) : List RawText → RawText
  | [] => ⟨[]⟩
  | [part] => part
  | part :: rest => part ++ separator ++ joined separator rest

/-- Changes every stretch of characters between halves of pairs; `before` is the stretch so far, backwards. -/
def mapStretchesFrom (f : List Char → List Char) (before : List Char) : List CodePoint → List CodePoint
  | [] => (f before.reverse).map .char
  | .char c :: rest => mapStretchesFrom f (c :: before) rest
  | .half offset :: rest => (f before.reverse).map .char ++ .half offset :: mapStretchesFrom f [] rest

/-- Changes every stretch of characters between halves of pairs. -/
def mapStretches (f : List Char → List Char) (s : RawText) : RawText :=
  ⟨mapStretchesFrom f [] s.points⟩

@[simp] theorem points_append (s t : RawText) : (s ++ t).points = s.points ++ t.points := rfl

@[simp] theorem chars_ofChars (cs : List Char) : (ofChars cs).chars = cs := by
  simp [ofChars, chars, CodePoint.toChar, Function.comp_def]

theorem ofString_injective {s t : String} (h : ofString s = ofString t) : s = t := by
  have same := congrArg chars h
  rw [ofString, ofString, chars_ofChars, chars_ofChars] at same
  exact String.toList_inj.mp same

theorem map_ofString_injective {texts texts' : List String} (h : texts.map ofString = texts'.map ofString) :
    texts = texts' :=
  (List.map_inj_right fun _ _ => ofString_injective).mp h

theorem points_injective {s t : RawText} (h : s.points = t.points) : s = t := by
  cases s
  cases t
  exact congrArg mk h

end RawText

end SolidityLint
