import PascalTree.Json.Reader
import PascalTree.Numeric.Total

/-!
# Text — strings inside a document

A string is read behind its opening quote. Escapes are decoded; a pair of escapes may denote a
character beyond U+FFFF. Strings that are skipped have their escapes checked for form only.
-/

namespace PascalTree
namespace Json

/-! ## Escapes -/

/-- The value of a hexadecimal digit of either case. -/
def hexValue? (c : Char) : Option Nat :=
  if '0' ≤ c ∧ c ≤ '9' then some (c.toNat - '0'.toNat)
  else if 'a' ≤ c ∧ c ≤ 'f' then some (c.toNat - 'a'.toNat + 10)
  else if 'A' ≤ c ∧ c ≤ 'F' then some (c.toNat - 'A'.toNat + 10)
  else none

/-- The code unit written by four hexadecimal digits. -/
def codeUnit? (a b c d : Char) : Option Nat :=
  match hexValue? a, hexValue? b, hexValue? c, hexValue? d with
  | some a, some b, some c, some d => some (a * 4096 + b * 256 + c * 16 + d)
  | _, _, _, _ => none

/-- The code units that start a pair. -/
def isLeading (n : Nat) : Bool := decide (0xd800 ≤ n) && decide (n < 0xdc00)

/-- The code units that end a pair. -/
def isTrailing (n : Nat) : Bool := decide (0xdc00 ≤ n) && decide (n < 0xe000)

/-- The character written by a pair of code units. -/
def joinPair (leading trailing : Nat) : Char :=
  Char.ofNat (0x10000 + (leading - 0xd800) * 0x400 + (trailing - 0xdc00))

/-- The character denoted by a letter behind a backslash. -/
def simpleEscape? (c : Char) : Option Char :=
  if c = '"' then some '"'
  else if c = '\\' then some '\\'
  else if c = '/' then some '/'
  else if c = 'b' then some '\x08'
  else if c = 'f' then some '\x0c'
  else if c = 'n' then some '\n'
  else if c = 'r' then some '\r'
  else if c = 't' then some '\t'
  else none

/-- The number of bytes of a text. -/
def byteSize (s : List Char) : Nat := Numeric.total (s.map Char.utf8Size)

/-- Reads a code unit behind `\u`. If no four hexadecimal digits stand there, four bytes are taken,
or all that are left. -/
def readCodeUnit (s : List Char) : Outcome Nat :=
  match s with
  | a :: b :: c :: d :: rest =>
    match codeUnit? a b c d with
    | some n => .done n rest
    | none => .failed .invalidEscape ⟨s, 4⟩
  | _ =>
    if byteSize s < 4 then .failed (.endOfInput .string) ⟨[], 0⟩
    else .failed .invalidEscape ⟨s, 4⟩

/-- Takes a character that must be `c`, between the two code units of a pair. -/
def expectInPair (c : Char) : List Char → Outcome Unit
  | [] => .failed (.endOfInput .string) ⟨[], 0⟩
  | d :: rest =>
    if d = c then .done () rest else .failed .unfinishedSurrogatePair ⟨d :: rest, 1⟩

/-- Reads the second escape of a pair. -/
def readTrailing (leading : Nat) (s : List Char) : Outcome Char :=
  (expectInPair '\\' s).bind fun _ s =>
    (expectInPair 'u' s).bind fun _ s =>
      (readCodeUnit s).bind fun trailing rest =>
        if isTrailing trailing then .done (joinPair leading trailing) rest
        else .failed .loneSurrogate ⟨rest, 0⟩

/-- Reads a character behind `\u`. -/
def readUnicode (s : List Char) : Outcome Char :=
  (readCodeUnit s).bind fun n rest =>
    if isTrailing n then .failed .loneSurrogate ⟨rest, 0⟩
    else if isLeading n then readTrailing n rest
    else .done (Char.ofNat n) rest

/-- Reads a character behind a backslash. -/
def readEscape : List Char → Outcome Char
  | [] => .failed (.endOfInput .string) ⟨[], 0⟩
  | e :: rest =>
    if e = 'u' then readUnicode rest
    else
      match simpleEscape? e with
      | some c => .done c rest
      | none => .failed .invalidEscape ⟨e :: rest, 1⟩

/-- Skips what stands behind a backslash; the code units of pairs are not compared. -/
def skipEscape : List Char → Outcome Unit
  | [] => .failed (.endOfInput .string) ⟨[], 0⟩
  | e :: rest =>
    if e = 'u' then (readCodeUnit rest).bind fun _ rest => .done () rest
    else if (simpleEscape? e).isSome then .done () rest
    else .failed .invalidEscape ⟨e :: rest, 1⟩

/-! ## Escapes consume something -/

theorem readCodeUnit_length {s rest : List Char} {n : Nat} (h : readCodeUnit s = .done n rest) :
    rest.length < s.length := by
  unfold readCodeUnit at h
  split at h
  · split at h
    · cases h
      simp only [List.length_cons]
      omega
    · cases h
  · split at h <;> cases h

theorem expectInPair_length {c : Char} {s rest : List Char} {u : Unit}
    (h : expectInPair c s = .done u rest) : rest.length < s.length := by
  cases s with
  | nil => cases h
  | cons d s =>
    simp only [expectInPair] at h
    split at h
    · cases h
      simp
    · cases h

theorem readTrailing_length {leading : Nat} {s rest : List Char} {c : Char}
    (h : readTrailing leading s = .done c rest) : rest.length < s.length := by
  obtain ⟨_, s₁, h₁, h⟩ := Outcome.bind_eq_done h
  obtain ⟨_, s₂, h₂, h⟩ := Outcome.bind_eq_done h
  obtain ⟨_, s₃, h₃, h⟩ := Outcome.bind_eq_done h
  have hlt₁ := expectInPair_length h₁
  have hlt₂ := expectInPair_length h₂
  have hlt₃ := readCodeUnit_length h₃
  split at h
  · obtain ⟨_, rfl⟩ := Outcome.done.inj h
    omega
  · cases h

theorem readUnicode_length {s rest : List Char} {c : Char} (h : readUnicode s = .done c rest) :
    rest.length < s.length := by
  obtain ⟨_, s₁, h₁, h⟩ := Outcome.bind_eq_done h
  have hlt := readCodeUnit_length h₁
  split at h
  · cases h
  · split at h
    · exact Nat.lt_trans (readTrailing_length h) hlt
    · obtain ⟨_, rfl⟩ := Outcome.done.inj h
      exact hlt

theorem readEscape_length {s rest : List Char} {c : Char} (h : readEscape s = .done c rest) :
    rest.length < s.length := by
  cases s with
  | nil => cases h
  | cons e s =>
    simp only [readEscape] at h
    split at h
    · exact Nat.lt_trans (readUnicode_length h) (Nat.lt_succ_self _)
    · split at h
      · cases h
        simp
      · cases h

theorem skipEscape_length {s rest : List Char} {u : Unit} (h : skipEscape s = .done u rest) :
    rest.length < s.length := by
  cases s with
  | nil => cases h
  | cons e s =>
    simp only [skipEscape] at h
    split at h
    · obtain ⟨_, s₁, h₁, h⟩ := Outcome.bind_eq_done h
      cases h
      exact Nat.lt_trans (readCodeUnit_length h₁) (Nat.lt_succ_self _)
    · split at h
      · cases h
        simp
      · cases h

/-! ## Strings -/

/-- Reads a string behind its opening quote; `acc` holds the characters read so far, the last one
first. -/
def readTextFrom (acc : List Char) (s : List Char) : Outcome String :=
  match s with
  | [] => .failed (.endOfInput .string) ⟨[], 0⟩
  | c :: rest =>
    if c = '"' then .done (String.ofList acc.reverse) rest
    else if c = '\\' then
      match _h : readEscape rest with
      | .done e rest' => readTextFrom (e :: acc) rest'
      | .pending fault rest' => .pending fault rest'
      | .failed fault mark => .failed fault mark
    else if c.toNat < 0x20 then .failed .controlCharacter ⟨s, 1⟩
    else readTextFrom (c :: acc) rest
termination_by s.length
decreasing_by
  · have := readEscape_length _h
    simp only [List.length_cons]
    omega
  · simp

/-- Reads a string behind its opening quote. -/
def readTextTail : Reader String := readTextFrom []

/-- Skips a string behind its opening quote. -/
def skipTextTail (s : List Char) : Outcome Unit :=
  match s with
  | [] => .failed (.endOfInput .string) ⟨[], 0⟩
  | c :: rest =>
    if c = '"' then .done () rest
    else if c = '\\' then
      match _h : skipEscape rest with
      | .done _ rest' => skipTextTail rest'
      | .pending fault rest' => .pending fault rest'
      | .failed fault mark => .failed fault mark
    else if c.toNat < 0x20 then .failed .controlCharacter ⟨s, 0⟩
    else skipTextTail rest
termination_by s.length
decreasing_by
  · have := skipEscape_length _h
    simp only [List.length_cons]
    omega
  · simp

/-! ## Unfolding -/

theorem readTextFrom_cons (acc : List Char) (c : Char) (rest : List Char) :
    readTextFrom acc (c :: rest) =
      if c = '"' then .done (String.ofList acc.reverse) rest
      else if c = '\\' then
        (readEscape rest).bind fun e rest => readTextFrom (e :: acc) rest
      else if c.toNat < 0x20 then .failed .controlCharacter ⟨c :: rest, 1⟩
      else readTextFrom (c :: acc) rest := by
  rw [readTextFrom]
  split
  · rfl
  · split
    · split <;> rename_i h <;> rw [h] <;> rfl
    · rfl

theorem skipTextTail_cons (c : Char) (rest : List Char) :
    skipTextTail (c :: rest) =
      if c = '"' then .done () rest
      else if c = '\\' then (skipEscape rest).bind fun _ rest => skipTextTail rest
      else if c.toNat < 0x20 then .failed .controlCharacter ⟨c :: rest, 0⟩
      else skipTextTail rest := by
  rw [skipTextTail]
  split
  · rfl
  · split
    · split <;> rename_i h <;> rw [h] <;> rfl
    · rfl

end Json
end PascalTree
