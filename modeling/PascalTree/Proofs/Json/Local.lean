import PascalTree.Json.Skip
import PascalTree.Proofs.Json.Gives
import PascalTree.Proofs.Json.Reads

/-!
# Local — readers take their values from the front of a text

A reader that ends well has decided so by what it took: with more text behind, it takes the same
part and gives the same value. Numbers are the exception. They have no end of their own, so a
number at the very end of a text might have gone on, and something must be left behind it.

* `TakesFront`: what is taken is a front part of the text, and it is taken from longer texts too;
* `Local`, `Delimited`: the two conditions on what is left, for values without and with an end of
  their own;
* `TakesFront.bind`, `Local.iterate`, `Local.closedBy`, …: composed readers;
* `local_readNumber`, `local_skipValue`, …: the readers of documents.
-/

namespace PascalTree
namespace Json

variable {α β σ : Type} {safe : List Char → Prop}

/-- The reader takes its value from the front of the text. If what is left is safe, the same is
taken when more text follows. -/
def TakesFront (safe : List Char → Prop) (reader : Reader α) : Prop :=
  ∀ s value rest, reader s = .done value rest →
    rest <:+ s ∧ (safe rest → ∀ more, reader (s ++ more) = .done value (rest ++ more))

/-- More text makes no difference as long as something is left behind the value. -/
abbrev Local (reader : Reader α) : Prop := TakesFront (· ≠ []) reader

/-- More text makes no difference: the value has an end of its own. -/
abbrev Delimited (reader : Reader α) : Prop := TakesFront (fun _ => True) reader

theorem ne_nil_of_suffix {s rest : List Char} (h : rest <:+ s) (hrest : rest ≠ []) : s ≠ [] := by
  rintro rfl
  exact hrest (List.suffix_nil.mp h)

/-! ## Sequences of readers -/

namespace TakesFront

theorem of_gives_nothing {reader : Reader α} (h : Gives reader fun _ => False) :
    TakesFront safe reader :=
  fun s value rest hdone => (h s value rest hdone).elim

theorem pure (value : α) : TakesFront safe (Pure.pure value : Reader α) := by
  intro s value' rest hdone
  cases hdone
  exact ⟨List.suffix_rfl, fun _ _ => rfl⟩

theorem bind {before : List Char → Prop} {reader : Reader α} {next : α → Reader β}
    (h : TakesFront before reader) (hnext : ∀ value, TakesFront safe (next value))
    (hsafe : ∀ s value value' rest, next value s = .done value' rest → safe rest → before s) :
    TakesFront safe (reader >>= next) := by
  intro s value rest hdone
  rcases Outcome.bind_eq_done hdone with ⟨a, mid, hread, hrest⟩
  obtain ⟨hmid, hfirst⟩ := h s a mid hread
  obtain ⟨hsuffix, hsecond⟩ := hnext a mid value rest hrest
  refine ⟨hsuffix.trans hmid, fun hok more => ?_⟩
  -- If the end is safe, so is the place where the second reader starts.
  rw [Reader.bind_apply, hfirst (hsafe mid a value rest hrest hok) more]
  exact hsecond hok more

theorem settle {reader : Reader α} (h : TakesFront safe reader) :
    TakesFront safe (Reader.settle reader) := by
  intro s value rest hdone
  have hread : reader s = .done value rest := by
    cases hreader : reader s with
    | done value' rest' =>
      rw [Reader.settle, hreader] at hdone
      exact hdone
    | pending fault rest' =>
      rw [Reader.settle, hreader] at hdone
      cases hdone
    | failed fault mark =>
      rw [Reader.settle, hreader] at hdone
      cases hdone
  obtain ⟨hsuffix, hmore⟩ := h s value rest hread
  refine ⟨hsuffix, fun hok more => ?_⟩
  rw [Reader.settle, hmore hok more]
  rfl

/-- A choice that does not depend on the text. -/
theorem ite {c : Prop} [Decidable c] {reader reader' : Reader α} (h : c → TakesFront safe reader)
    (h' : ¬ c → TakesFront safe reader') :
    TakesFront safe fun s => if c then reader s else reader' s := by
  by_cases hc : c
  · simpa only [if_pos hc] using h hc
  · simpa only [if_neg hc] using h' hc

end TakesFront

theorem Delimited.local {reader : Reader α} (h : Delimited reader) : Local reader :=
  fun s value rest hdone => ⟨(h s value rest hdone).1, fun _ => (h s value rest hdone).2 trivial⟩

/-- What is left in the end was left before. -/
theorem Local.bind {reader : Reader α} {next : α → Reader β} (h : Local reader)
    (hnext : ∀ value, Local (next value)) : Local (reader >>= next) :=
  TakesFront.bind h hnext fun _ value value' rest hdone hrest =>
    ne_nil_of_suffix (hnext value _ value' rest hdone).1 hrest

theorem Delimited.bind {reader : Reader α} {next : α → Reader β} (h : Delimited reader)
    (hnext : ∀ value, TakesFront safe (next value)) : TakesFront safe (reader >>= next) :=
  TakesFront.bind h hnext fun _ _ _ _ _ _ => trivial

/-- What must not stand at the end of the text marks the end of what comes before it. -/
theorem Local.bind_delimited {reader : Reader α} {next : α → Reader β} (h : Local reader)
    (hnext : ∀ value, Delimited (next value))
    (hnil : ∀ value value' rest, next value [] ≠ .done value' rest) : Delimited (reader >>= next) :=
  TakesFront.bind h hnext fun s value value' rest hdone _ => by
    rintro rfl
    exact hnil value value' rest hdone

/-- A closing bracket marks the end of its content. -/
theorem Local.closedBy {close : Reader Unit} {content : Reader α} (h : Local content)
    (hclose : Delimited close) (hnil : ∀ value rest, close [] ≠ .done value rest) :
    Delimited (Reader.closedBy close content) := by
  have hseq : Delimited (content >>= fun value => close >>= fun _ => pure value) := by
    refine h.bind_delimited (fun value => hclose.bind fun _ => TakesFront.pure value) ?_
    intro value value' rest hdone
    rcases Outcome.bind_eq_done hdone with ⟨u, mid, hclosed, _⟩
    exact hnil u mid hclosed
  -- Where the content is read, the closing step comes behind it as in a sequence.
  have heq : ∀ s value rest, Reader.closedBy close content s = .done value rest ↔
      (content >>= fun value => close >>= fun _ => pure value) s = .done value rest := by
    intro s value rest
    rw [Reader.closedBy, Reader.bind_apply]
    cases content s with
    | done value' rest' => rfl
    | pending fault rest' => simp [Outcome.bind]
    | failed fault mark => simp [Outcome.bind]
  intro s value rest hdone
  obtain ⟨hsuffix, hmore⟩ := hseq s value rest ((heq s value rest).mp hdone)
  exact ⟨hsuffix, fun hok more => (heq _ value _).mpr (hmore hok more)⟩

/-! ## Repetition -/

theorem iterateWithin_append {step : σ → Reader (σ ⊕ β)} (h : ∀ state, Local (step state))
    {budget : List Char} {state : σ} {s rest : List Char} {value : β}
    (hdone : Reader.iterateWithin step budget state s = .done value rest) :
    rest <:+ s ∧ (rest ≠ [] → ∀ more room,
      Reader.iterateWithin step (budget ++ room) state (s ++ more) =
        .done value (rest ++ more)) := by
  -- The budget of a longer text begins with that of the shorter one, and what is left of it stays.
  induction budget generalizing state s with
  | nil =>
    rw [Reader.iterateWithin] at hdone
    split at hdone
    · rename_i result rest' hread
      cases hdone
      obtain ⟨hsuffix, hmore⟩ := h state s _ _ hread
      refine ⟨hsuffix, fun hrest more room => ?_⟩
      rw [Reader.iterateWithin.eq_def, hmore hrest more]
    · cases hdone
    · cases hdone
    · cases hdone
  | cons c budget ih =>
    rw [Reader.iterateWithin] at hdone
    split at hdone
    · rename_i result rest' hread
      cases hdone
      obtain ⟨hsuffix, hmore⟩ := h state s _ _ hread
      refine ⟨hsuffix, fun hrest more room => ?_⟩
      rw [Reader.iterateWithin.eq_def, hmore hrest more]
    · rename_i state' mid hread
      obtain ⟨hmid, hfirst⟩ := h state s _ _ hread
      obtain ⟨hsuffix, hlater⟩ := ih hdone
      refine ⟨hsuffix.trans hmid, fun hrest more room => ?_⟩
      rw [List.cons_append, Reader.iterateWithin, hfirst (ne_nil_of_suffix hsuffix hrest) more]
      exact hlater hrest more room
    · cases hdone
    · cases hdone

/-- A longer text allows more repetitions, but no more of them take place. -/
theorem Local.iterate {step : σ → Reader (σ ⊕ β)} (h : ∀ state, Local (step state)) (state : σ) :
    Local (Reader.iterate step state) := by
  intro s value rest hdone
  obtain ⟨hsuffix, hmore⟩ := iterateWithin_append h hdone
  exact ⟨hsuffix, fun hrest more => hmore hrest more more⟩

/-! ## First characters -/

/-- As `TakesFront`, for texts that start with the given character. -/
def TakesFrontAt (safe : List Char → Prop) (reader : Reader α) (c : Char) : Prop :=
  ∀ s value rest, reader (c :: s) = .done value rest →
    rest <:+ c :: s ∧ (safe rest → ∀ more, reader (c :: (s ++ more)) = .done value (rest ++ more))

namespace TakesFrontAt

variable {reader reader' : Reader α} {c : Char}

theorem fails (h : ∀ s value rest, reader (c :: s) ≠ .done value rest) :
    TakesFrontAt safe reader c :=
  fun s value rest hdone => absurd hdone (h s value rest)

/-- The character is taken, and another reader goes on behind it. -/
theorem behind (h : TakesFront safe reader') (heq : ∀ s, reader (c :: s) = reader' s) :
    TakesFrontAt safe reader c := by
  intro s value rest hdone
  rw [heq] at hdone
  obtain ⟨hsuffix, hmore⟩ := h s value rest hdone
  refine ⟨hsuffix.trans (List.suffix_cons c s), fun hok more => ?_⟩
  rw [heq]
  exact hmore hok more

/-- The character is only looked at: another reader starts with it. -/
theorem before (h : TakesFront safe reader') (heq : ∀ s, reader (c :: s) = reader' (c :: s)) :
    TakesFrontAt safe reader c := by
  intro s value rest hdone
  rw [heq] at hdone
  obtain ⟨hsuffix, hmore⟩ := h (c :: s) value rest hdone
  refine ⟨hsuffix, fun hok more => ?_⟩
  rw [heq]
  exact hmore hok more

end TakesFrontAt

namespace TakesFront

variable {reader : Reader α}

/-- At the end of a text, a reader gives nothing, or what it gives might go on. -/
theorem of_first (hnil : ∀ value rest, reader [] = .done value rest → rest = [] ∧ ¬ safe [])
    (h : ∀ c, TakesFrontAt safe reader c) : TakesFront safe reader := by
  intro s value rest hdone
  cases s with
  | nil =>
    obtain ⟨rfl, hunsafe⟩ := hnil value rest hdone
    exact ⟨List.suffix_rfl, fun hok => absurd hok hunsafe⟩
  | cons c s => exact h c s value rest hdone

/-- Readers that skip blanks and then see a character. -/
theorem of_first_behind_blanks (hskip : ∀ s, reader s = reader (skipBlanks s))
    (hnil : ∀ value rest, reader [] ≠ .done value rest)
    (h : ∀ c, isBlank c = false → TakesFrontAt safe reader c) : TakesFront safe reader := by
  intro s value rest hdone
  cases hs : skipBlanks s with
  | nil =>
    rw [hskip, hs] at hdone
    exact absurd hdone (hnil value rest)
  | cons c s' =>
    rw [hskip, hs] at hdone
    obtain ⟨hsuffix, hmore⟩ := h c (isBlank_of_skipBlanks hs) s' value rest hdone
    refine ⟨hsuffix.trans (hs ▸ skipBlanks_suffix s), fun hok more => ?_⟩
    rw [hskip, skipBlanks_append hs more]
    exact hmore hok more

theorem startValue (h : TakesFront safe reader) : TakesFront safe (startValue reader) := by
  refine of_first_behind_blanks (fun s => ?_) nofun fun c hc => .before h fun s => ?_
  · rw [Json.startValue, Json.startValue, skipBlanks_skipBlanks]
  · rw [Json.startValue, skipBlanks_cons hc]

end TakesFront

/-! ## Strings -/

theorem delimited_readCodeUnit : Delimited readCodeUnit := by
  intro s n rest hdone
  unfold readCodeUnit at hdone
  split at hdone
  · rename_i a b c d rest'
    split at hdone
    · rename_i n' hunit
      cases hdone
      exact ⟨⟨[a, b, c, d], rfl⟩, fun _ more => by simp [readCodeUnit, hunit]⟩
    · cases hdone
  · split at hdone <;> cases hdone

theorem delimited_expectInPair (c : Char) : Delimited (expectInPair c) := by
  refine TakesFront.of_first nofun fun d => ?_
  by_cases hd : d = c
  · exact .behind (TakesFront.pure ()) fun s => if_pos hd
  · exact .fails fun s value rest => by simp [expectInPair, hd]

theorem delimited_readTrailing (leading : Nat) : Delimited (readTrailing leading) :=
  (delimited_expectInPair '\\').bind fun _ => (delimited_expectInPair 'u').bind fun _ =>
    delimited_readCodeUnit.bind fun _ =>
      TakesFront.ite (fun _ => TakesFront.pure _) fun _ => TakesFront.of_gives_nothing nofun

theorem delimited_readUnicode : Delimited readUnicode :=
  delimited_readCodeUnit.bind fun n =>
    TakesFront.ite (fun _ => TakesFront.of_gives_nothing nofun) fun _ =>
      TakesFront.ite (fun _ => delimited_readTrailing n) fun _ => TakesFront.pure _

theorem delimited_readEscape : Delimited readEscape := by
  refine TakesFront.of_first nofun fun e => ?_
  by_cases he : e = 'u'
  · exact .behind delimited_readUnicode fun s => if_pos he
  · cases hescape : simpleEscape? e with
    | some c => exact .behind (TakesFront.pure c) fun s => by simp [readEscape, he, hescape]
    | none => exact .fails fun s value rest => by simp [readEscape, he, hescape]

theorem delimited_skipEscape : Delimited skipEscape := by
  refine TakesFront.of_first nofun fun e => ?_
  by_cases he : e = 'u'
  · exact .behind (delimited_readCodeUnit.bind fun _ => TakesFront.pure ()) fun s => if_pos he
  · by_cases hescape : (simpleEscape? e).isSome = true
    · refine .behind (TakesFront.pure ()) fun s => ?_
      rw [skipEscape, if_neg he, if_pos hescape]
      rfl
    · exact .fails fun s value rest => by simp [skipEscape, he, hescape]

/-- Strings that are read and strings that are skipped go on character by character in the same way,
up to the closing quote; what is kept on the way may differ. -/
theorem delimited_text {ε : Type} (read : σ → Reader α) {escape : Reader ε}
    {mark : Char → List Char → Mark} {final : σ → α} (onEscape : σ → ε → σ) (onChar : σ → Char → σ)
    (hnil : ∀ state value rest, read state [] ≠ .done value rest)
    (hcons : ∀ state c rest, read state (c :: rest) =
      if c = '"' then .done (final state) rest
      else if c = '\\' then (escape rest).bind fun e rest => read (onEscape state e) rest
      else if c.toNat < 0x20 then .failed .controlCharacter (mark c rest)
      else read (onChar state c) rest)
    (hescape : Delimited escape)
    (hlength : ∀ {s e rest}, escape s = .done e rest → rest.length < s.length) (state : σ) :
    Delimited (read state) := by
  intro s value rest hdone
  -- An escape takes several characters at once, so the induction is on the length of the text.
  induction hs : s.length using Nat.strongRecOn generalizing state s with
  | ind n ih =>
    subst hs
    cases s with
    | nil => exact absurd hdone (hnil state value rest)
    | cons c s =>
      rw [hcons] at hdone
      split at hdone
      · rename_i hquote
        cases hdone
        exact ⟨List.suffix_cons c _, fun _ more => by rw [List.cons_append, hcons, if_pos hquote]⟩
      · rename_i hquote
        split at hdone
        · rename_i hslash
          rcases Outcome.bind_eq_done hdone with ⟨e, mid, hread, hrest⟩
          obtain ⟨hmid, hfirst⟩ := hescape s e mid hread
          have hlt : mid.length < (c :: s).length := Nat.lt_succ_of_lt (hlength hread)
          obtain ⟨hsuffix, hmore⟩ := ih mid.length hlt (onEscape state e) mid hrest rfl
          refine ⟨(hsuffix.trans hmid).trans (List.suffix_cons c s), fun hok more => ?_⟩
          rw [List.cons_append, hcons, if_neg hquote, if_pos hslash, hfirst trivial more]
          exact hmore hok more
        · rename_i hslash
          split at hdone
          · cases hdone
          · rename_i hcontrol
            obtain ⟨hsuffix, hmore⟩ := ih s.length (Nat.lt_succ_self _) (onChar state c) s hdone rfl
            refine ⟨hsuffix.trans (List.suffix_cons c s), fun hok more => ?_⟩
            rw [List.cons_append, hcons, if_neg hquote, if_neg hslash, if_neg hcontrol]
            exact hmore hok more

theorem delimited_readTextTail : Delimited readTextTail :=
  delimited_text readTextFrom (fun acc e => e :: acc) (fun acc c => c :: acc)
    (fun acc _ _ => by simp [readTextFrom]) readTextFrom_cons delimited_readEscape
    readEscape_length []

theorem delimited_skipTextTail : Delimited skipTextTail :=
  delimited_text (fun _ : Unit => skipTextTail) (fun _ _ => ()) (fun _ _ => ())
    (fun _ _ _ => by simp [skipTextTail]) (fun _ => skipTextTail_cons) delimited_skipEscape
    skipEscape_length ()

/-! ## Words -/

theorem delimited_readWord (word : List Char) : Delimited (readWord word) := by
  induction word with
  | nil => exact TakesFront.pure ()
  | cons w word ih =>
    refine TakesFront.of_first nofun fun c => ?_
    by_cases hc : c = w
    · exact .behind ih fun s => if_pos hc
    · exact .fails fun s value rest => by simp [readWord, hc]

/-! ## Numbers -/

/-- A run of digits has ended if something is left behind it. -/
theorem local_digits (next : List Char → Reader α) (h : ∀ run, Local (next run)) :
    Local fun s => next (s.takeWhile Char.isDigit) (s.dropWhile Char.isDigit) := by
  intro s value rest hdone
  obtain ⟨hsuffix, hmore⟩ := h _ _ value rest hdone
  refine ⟨hsuffix.trans (List.dropWhile_suffix Char.isDigit), fun hrest more => ?_⟩
  have hne : s.dropWhile Char.isDigit ≠ [] := ne_nil_of_suffix hsuffix hrest
  have hdrop : (s ++ more).dropWhile Char.isDigit = s.dropWhile Char.isDigit ++ more := by
    rw [List.dropWhile_append, if_neg (by simpa using hne)]
  have htake : (s ++ more).takeWhile Char.isDigit = s.takeWhile Char.isDigit := by
    -- Both runs complete the same text with what stands behind them.
    have hsplit : (s ++ more).takeWhile Char.isDigit ++ (s.dropWhile Char.isDigit ++ more) =
        s.takeWhile Char.isDigit ++ (s.dropWhile Char.isDigit ++ more) := by
      rw [← hdrop, List.takeWhile_append_dropWhile, hdrop, ← List.append_assoc,
        List.takeWhile_append_dropWhile]
    exact List.append_cancel_right hsplit
  simp only [hdrop, htake]
  exact hmore hrest more

theorem delimited_endReal (positive : Bool) (significand : Nat) (exponent : Int) :
    Delimited (endReal positive significand exponent) := by
  unfold endReal
  split
  · exact TakesFront.pure _
  · exact TakesFront.of_gives_nothing nofun

theorem Local.nil {reader : Reader α} (h : Local reader) {value : α} {rest : List Char}
    (hdone : reader [] = .done value rest) : rest = [] ∧ ¬ ([] : List Char) ≠ [] :=
  ⟨List.suffix_nil.mp (h [] value rest hdone).1, fun hne => hne rfl⟩

/-- Whether a digit stands next is known as soon as something is left. -/
theorem Local.onDigit {reader reader' : Reader α} (h : Local reader) (h' : Local reader') :
    Local fun s => if startsWithDigit s then reader s else reader' s := by
  refine TakesFront.of_first (fun _ _ hdone => h'.nil hdone) fun c => ?_
  cases hc : c.isDigit with
  | true => exact .before h fun s => if_pos hc
  | false => exact .before h' fun s => by simp [startsWithDigit, hc]

/-- Whether an exponent stands next is known as soon as something is left. -/
theorem Local.onExponent {reader exponent other : Reader α} (h : Local exponent) (h' : Local other)
    (hnil : reader [] = other []) (he : ∀ s, reader ('e' :: s) = exponent s)
    (hE : ∀ s, reader ('E' :: s) = exponent s)
    (hother : ∀ c s, c ≠ 'e' → c ≠ 'E' → reader (c :: s) = other (c :: s)) : Local reader := by
  refine TakesFront.of_first (fun _ _ hdone => h'.nil (hnil ▸ hdone)) fun c => ?_
  by_cases hc : c = 'e'
  · subst hc
    exact .behind h he
  · by_cases hc' : c = 'E'
    · subst hc'
      exact .behind h hE
    · exact .before h' fun s => hother c s hc hc'

/-- What the digits of an exponent mean depends on them alone, and behind them nothing is taken. -/
theorem local_exponentDigits (positive raises : Bool) (significand : Nat) (exponent : Int) :
    Local fun s => match s with
      | [] => .failed (.endOfInput .value) ⟨[], 0⟩
      | c :: cs =>
        if !c.isDigit then .failed .invalidNumber ⟨c :: cs, 1⟩
        else
          match absorb exponentLimit 0 ((c :: cs).takeWhile Char.isDigit) with
          | (e, []) =>
            endReal positive significand (if raises then exponent + e else exponent - e)
              ((c :: cs).dropWhile Char.isDigit)
          | (_, _ :: left) =>
            if significand ≠ 0 && raises then
              .failed .numberOutOfRange ⟨left ++ (c :: cs).dropWhile Char.isDigit, 0⟩
            else .done (.real (Numeric.Binary64.zero (!positive)))
              ((c :: cs).dropWhile Char.isDigit) := by
  have hvalue (run : List Char) : Local fun rest =>
      match absorb exponentLimit 0 run with
      | (e, []) =>
        endReal positive significand (if raises then exponent + e else exponent - e) rest
      | (_, _ :: left) =>
        if significand ≠ 0 && raises then .failed .numberOutOfRange ⟨left ++ rest, 0⟩
        else .done (.real (Numeric.Binary64.zero (!positive))) rest := by
    split
    · exact (delimited_endReal positive significand _).local
    · exact TakesFront.ite (fun _ => TakesFront.of_gives_nothing nofun) fun _ => TakesFront.pure _
  refine TakesFront.of_first nofun fun c => ?_
  cases hc : c.isDigit with
  | false => exact .fails fun s n rest => by simp [hc]
  | true => exact .before (local_digits _ hvalue) fun s => by simp only [hc]; rfl

theorem local_readExponent (positive : Bool) (significand : Nat) (exponent : Int) :
    Local (readExponent positive significand exponent) := by
  refine TakesFront.of_first nofun fun c => ?_
  have hdigits := local_exponentDigits positive (some c != some '-') significand exponent
  by_cases hsign : (some c == some '-' || some c == some '+') = true
  · -- The digits start behind the sign.
    refine .behind hdigits fun s => ?_
    simp only [readExponent, List.head?_cons, hsign, if_true, List.tail_cons]
    rfl
  · refine .before hdigits fun s => ?_
    simp only [readExponent, List.head?_cons, hsign]
    rfl

theorem local_readRealEnd (positive : Bool) (significand : Nat) (exponent : Int) :
    Local (readRealEnd positive significand exponent) :=
  Local.onExponent (local_readExponent positive significand exponent)
    (delimited_endReal positive significand exponent).local rfl (fun _ => rfl) (fun _ => rfl)
    fun c s he hE => by simp [readRealEnd, he, hE]

theorem local_readFraction (positive : Bool) (significand : Nat) (exponent : Int) :
    Local (readFraction positive significand exponent) := by
  have hvalue (digits : List Char) : Local fun rest =>
      if digits.isEmpty then
        Reader.failPeek (if rest.isEmpty then .endOfInput .value else .invalidNumber) rest
      else
        readRealEnd positive (absorb significandLimit significand digits).1
          (exponent - (digits.length - (absorb significandLimit significand digits).2.length : Nat))
          rest :=
    TakesFront.ite (fun _ => TakesFront.of_gives_nothing nofun) fun _ =>
      local_readRealEnd positive _ _
  exact local_digits _ hvalue

theorem local_readNumberEnd (positive : Bool) (digits : List Char) :
    Local (readNumberEnd positive digits) := by
  have hfraction := local_readFraction positive (absorb significandLimit 0 digits).1
    (absorb significandLimit 0 digits).2.length
  have hexponent := local_readExponent positive (absorb significandLimit 0 digits).1
    (absorb significandLimit 0 digits).2.length
  have hend : Local fun rest =>
      if (absorb significandLimit 0 digits).2.isEmpty then
        .done (ofInteger positive (absorb significandLimit 0 digits).1) rest
      else
        endReal positive (absorb significandLimit 0 digits).1
          (absorb significandLimit 0 digits).2.length rest :=
    TakesFront.ite (fun _ => TakesFront.pure _) fun _ => (delimited_endReal positive _ _).local
  refine TakesFront.of_first (fun _ _ hdone => hend.nil hdone) fun c => ?_
  by_cases hpoint : c = '.'
  · subst hpoint
    exact .behind hfraction fun _ => rfl
  · by_cases he : c = 'e'
    · subst he
      exact .behind hexponent fun _ => rfl
    · by_cases hE : c = 'E'
      · subst hE
        exact .behind hexponent fun _ => rfl
      · exact .before hend fun s => by simp [readNumberEnd, hpoint, he, hE]

theorem local_readNumber (positive : Bool) : Local (readNumber positive) := by
  refine TakesFront.of_first nofun fun c => ?_
  by_cases hzero : c = '0'
  · subst hzero
    have hnone : Local (Reader.failPeek .invalidNumber : Reader Number) :=
      TakesFront.of_gives_nothing nofun
    exact .behind (hnone.onDigit (local_readNumberEnd positive ['0'])) fun _ => rfl
  · by_cases hdigit : c.isDigit = true
    · refine .before (local_digits (readNumberEnd positive) (local_readNumberEnd positive))
        fun s => ?_
      simp only [readNumber, if_neg hzero, if_pos hdigit]
    · exact .fails fun s n rest hdone => by simp [readNumber, hzero, hdigit] at hdone

theorem local_skipDigits : Local skipDigits := by
  refine TakesFront.of_first nofun fun c => ?_
  by_cases hdigit : c.isDigit = true
  · refine .behind (local_digits (fun _ => pure ()) fun _ => TakesFront.pure ()) fun s => ?_
    simp only [skipDigits, if_pos hdigit]
    rfl
  · exact .fails fun s n rest hdone => by simp [skipDigits, hdigit] at hdone

theorem local_skipExponent : Local skipExponent := by
  refine TakesFront.of_first nofun fun c => ?_
  by_cases hplus : c = '+'
  · subst hplus
    exact .behind local_skipDigits fun _ => rfl
  · by_cases hminus : c = '-'
    · subst hminus
      exact .behind local_skipDigits fun _ => rfl
    · exact .before local_skipDigits fun s => by simp [skipExponent, hplus, hminus]

theorem local_skipRealEnd : Local skipRealEnd :=
  Local.onExponent local_skipExponent (TakesFront.pure ()) rfl (fun _ => rfl) (fun _ => rfl)
    fun c s he hE => by simp [skipRealEnd, he, hE]

theorem local_skipNumberEnd : Local skipNumberEnd := by
  have hfraction : Local fun s => skipRealEnd (s.dropWhile Char.isDigit) :=
    local_digits (fun _ => skipRealEnd) fun _ => local_skipRealEnd
  have hnone : Local (Reader.failPeek .invalidNumber : Reader Unit) :=
    TakesFront.of_gives_nothing nofun
  refine TakesFront.of_first (fun _ _ hdone => local_skipRealEnd.nil hdone) fun c => ?_
  by_cases hpoint : c = '.'
  · subst hpoint
    exact .behind (hfraction.onDigit hnone) fun _ => rfl
  · exact .before local_skipRealEnd fun s => by simp [skipNumberEnd, hpoint]

theorem local_skipNumber : Local skipNumber := by
  have hnone : Local (Reader.failPeek .invalidNumber : Reader Unit) :=
    TakesFront.of_gives_nothing nofun
  refine TakesFront.of_first nofun fun c => ?_
  by_cases hzero : c = '0'
  · subst hzero
    exact .behind (hnone.onDigit local_skipNumberEnd) fun _ => rfl
  · refine .before (local_skipDigits.bind fun _ => local_skipNumberEnd) fun s => ?_
    simp [skipNumber, hzero]

/-! ## Values -/

theorem delimited_wrongType (expected : Expected) :
    Delimited (wrongType expected : Reader α) :=
  TakesFront.of_gives_nothing (gives_wrongType expected)

theorem delimited_readUnit : Delimited readUnit := by
  refine (TakesFront.of_first nofun fun c => ?_).settle.startValue
  by_cases hc : c = 'n'
  · subst hc
    exact .behind (delimited_readWord ['u', 'l', 'l']) fun _ => rfl
  · exact .before (delimited_wrongType .unit) fun s => by simp [hc]

theorem delimited_readFlag : Delimited readFlag := by
  refine (TakesFront.of_first nofun fun c => ?_).settle.startValue
  by_cases ht : c = 't'
  · subst ht
    exact .behind ((delimited_readWord ['r', 'u', 'e']).bind fun _ => TakesFront.pure true)
      fun _ => rfl
  · by_cases hf : c = 'f'
    · subst hf
      exact .behind ((delimited_readWord ['a', 'l', 's', 'e']).bind fun _ => TakesFront.pure false)
        fun _ => rfl
    · exact .before (delimited_wrongType .boolean) fun s => by simp [ht, hf]

theorem delimited_readText : Delimited readText := by
  refine (TakesFront.of_first nofun fun c => ?_).settle.startValue
  by_cases hc : c = '"'
  · subst hc
    exact .behind delimited_readTextTail fun _ => rfl
  · exact .before (delimited_wrongType .string) fun s => by simp [hc]

/-- What a number was converted to, if it could be. -/
def converted (result : Except Fault α) : Reader α := fun rest =>
  match result with
  | .ok value => .done value rest
  | .error fault => .pending fault rest

theorem delimited_converted (result : Except Fault α) : Delimited (converted result) := by
  cases result with
  | ok value => exact TakesFront.pure value
  | error fault => exact TakesFront.of_gives_nothing nofun

theorem local_readNumeral (expected : Expected) (convert : Number → Except Fault α) :
    Local (readNumeral expected convert) := by
  have hread (positive : Bool) : Local (readNumber positive >>= fun n => converted (convert n)) :=
    (local_readNumber positive).bind fun n => (delimited_converted (convert n)).local
  refine (TakesFront.of_first nofun fun c => ?_).settle.startValue
  by_cases hc : c = '-'
  · subst hc
    exact .behind (hread false) fun _ => rfl
  · refine .before ((hread true).onDigit (delimited_wrongType expected).local) fun s => ?_
    dsimp only
    split
    · rename_i heq
      cases heq
      exact absurd rfl hc
    · rfl

theorem local_readOptional {reader : Reader α} (h : Local reader)
    (hnil : ∀ value rest, reader [] ≠ .done value rest) : Local (readOptional reader) := by
  refine TakesFront.of_first_behind_blanks (fun s => ?_) ?_ fun c hblank => ?_
  · simp only [readOptional, skipBlanks_skipBlanks]
  · intro value rest hdone
    rcases Outcome.bind_eq_done hdone with ⟨value', mid, hread, _⟩
    exact hnil value' mid hread
  · by_cases hc : c = 'n'
    · subst hc
      exact .behind ((delimited_readWord ['u', 'l', 'l']).bind fun _ => TakesFront.pure none)
        fun _ => rfl
    · refine .before (h.bind fun value => TakesFront.pure (some value)) fun s => ?_
      simp [readOptional, skipBlanks_cons hblank, hc]
      rfl

/-! ## Between the parts of objects and lists -/

theorem nextKey_comma (s : List Char) :
    nextKey false (',' :: s) =
      match skipBlanks s with
      | [] => .failed (.endOfInput .value) ⟨[], 0⟩
      | '"' :: rest => (readTextTail rest).bind fun text => .done (some text)
      | '}' :: rest => Reader.failPeek .trailingComma ('}' :: rest)
      | rest => Reader.failPeek .keyNotString rest := rfl

theorem delimited_nextKey (first : Bool) : Delimited (nextKey first) := by
  have hkey : Delimited fun s => (readTextTail s).bind fun text => .done (some text) :=
    delimited_readTextTail.bind fun text => TakesFront.pure (some text)
  -- Behind a comma a key must come.
  have hmore : Delimited fun s => nextKey false (',' :: s) := by
    refine TakesFront.of_first_behind_blanks (fun s => ?_) nofun fun c hblank => ?_
    · simp only [nextKey_comma, skipBlanks_skipBlanks]
    · by_cases hquote : c = '"'
      · subst hquote
        exact .behind hkey fun _ => rfl
      · refine .fails fun s value rest hdone => ?_
        simp only [nextKey_comma, skipBlanks_cons hblank] at hdone
        split at hdone <;> simp_all [Reader.failPeek]
  refine TakesFront.of_first_behind_blanks (fun s => ?_) nofun fun c hblank => ?_
  · simp only [nextKey, skipBlanks_skipBlanks]
  · by_cases hclose : c = '}'
    · subst hclose
      exact .before (TakesFront.pure none) fun _ => rfl
    · cases first with
      | true =>
        by_cases hquote : c = '"'
        · subst hquote
          exact .behind hkey fun _ => rfl
        · refine .fails fun s value rest hdone => ?_
          simp [nextKey, skipBlanks_cons hblank, hquote, Reader.failPeek] at hdone
      | false =>
        by_cases hc : c = ','
        · subst hc
          exact .behind hmore fun _ => rfl
        · refine .fails fun s value rest hdone => ?_
          simp [nextKey, skipBlanks_cons hblank, hc, Reader.failPeek] at hdone

/-- Readers of one character behind blanks. -/
theorem delimited_mark {reader : Reader Unit} {c : Char}
    (hskip : ∀ s, reader s = reader (skipBlanks s)) (hc : ∀ s, reader (c :: s) = .done () s)
    (hnil : ∀ value rest, reader [] ≠ .done value rest)
    (hother : ∀ d s value rest, isBlank d = false → d ≠ c → reader (d :: s) ≠ .done value rest) :
    Delimited reader := by
  refine TakesFront.of_first_behind_blanks hskip hnil fun d hblank => ?_
  by_cases hd : d = c
  · subst hd
    exact .behind (TakesFront.pure ()) hc
  · exact .fails fun s value rest => hother d s value rest hblank hd

theorem delimited_readColon : Delimited readColon := by
  refine delimited_mark (c := ':') (fun s => ?_) (fun _ => rfl) nofun ?_
  · simp only [readColon, skipBlanks_skipBlanks]
  · intro d s value rest hblank hd hdone
    simp [readColon, skipBlanks_cons hblank, hd, Reader.failPeek] at hdone

theorem delimited_endObject : Delimited endObject := by
  refine delimited_mark (c := '}') (fun s => ?_) (fun _ => rfl) nofun ?_
  · simp only [endObject, skipBlanks_skipBlanks]
  · intro d s value rest hblank hd hdone
    simp only [endObject, skipBlanks_cons hblank] at hdone
    split at hdone <;> simp_all [Reader.failPeek]

theorem delimited_endList : Delimited endList := by
  refine delimited_mark (c := ']') (fun s => ?_) (fun _ => rfl) nofun ?_
  · simp only [endList, skipBlanks_skipBlanks]
  · intro d s value rest hblank hd hdone
    simp only [endList, skipBlanks_cons hblank] at hdone
    split at hdone
    · simp_all
    · split at hdone <;> cases hdone
    · cases hdone
    · cases hdone

theorem nextElement_comma (s : List Char) :
    nextElement false (',' :: s) =
      match skipBlanks s with
      | [] => .failed (.endOfInput .value) ⟨[], 0⟩
      | ']' :: rest => Reader.failPeek .trailingComma (']' :: rest)
      | rest => .done true rest := rfl

theorem delimited_nextElement (first : Bool) : Delimited (nextElement first) := by
  have hmore : Delimited fun s => nextElement false (',' :: s) := by
    refine TakesFront.of_first_behind_blanks (fun s => ?_) nofun fun c hblank => ?_
    · simp only [nextElement_comma, skipBlanks_skipBlanks]
    · by_cases hclose : c = ']'
      · subst hclose
        exact .fails nofun
      · refine .before (TakesFront.pure true) fun s => ?_
        simp [nextElement_comma, skipBlanks_cons hblank, hclose]
  refine TakesFront.of_first_behind_blanks (fun s => ?_) nofun fun c hblank => ?_
  · simp only [nextElement, skipBlanks_skipBlanks]
  · by_cases hclose : c = ']'
    · subst hclose
      exact .before (TakesFront.pure false) fun _ => rfl
    · cases first with
      | true =>
        refine .before (TakesFront.pure true) fun s => ?_
        simp [nextElement, skipBlanks_cons hblank]
      | false =>
        by_cases hc : c = ','
        · subst hc
          exact .behind hmore fun _ => rfl
        · refine .fails fun s value rest hdone => ?_
          simp [nextElement, skipBlanks_cons hblank, hc, Reader.failPeek] at hdone

/-! ## Skipped values -/

theorem delimited_enter (bracket : Bracket) : Delimited bracket.enter := by
  cases bracket with
  | list => exact TakesFront.pure ()
  | object =>
    refine TakesFront.of_first_behind_blanks (fun s => ?_) nofun fun c hblank => ?_
    · simp only [Bracket.enter, skipBlanks_skipBlanks]
    · by_cases hquote : c = '"'
      · subst hquote
        exact .behind (delimited_skipTextTail.bind fun _ => delimited_readColon) fun _ => rfl
      · refine .fails fun s value rest hdone => ?_
        simp [Bracket.enter, skipBlanks_cons hblank, hquote, Reader.failPeek] at hdone

theorem delimited_afterValue (brackets : List Bracket) : Delimited (afterValue brackets) := by
  induction brackets with
  | nil => exact TakesFront.pure (Sum.inr ())
  | cons bracket outer ih =>
    refine TakesFront.of_first_behind_blanks (fun s => ?_) nofun fun c hblank => ?_
    · simp only [afterValue, skipBlanks_skipBlanks]
    · by_cases hcomma : c = ','
      · subst hcomma
        exact .behind ((delimited_enter bracket).bind fun _ =>
          TakesFront.pure (.inl (bracket :: outer))) fun _ => rfl
      · by_cases hclose : c = bracket.closing
        · refine .behind ih fun s => ?_
          simp only [afterValue, skipBlanks_cons hblank, if_neg hcomma, if_pos hclose]
        · refine .fails fun s value rest hdone => ?_
          simp [afterValue, skipBlanks_cons hblank, hcomma, hclose, Reader.failPeek] at hdone

theorem delimited_afterOpening (bracket : Bracket) (outer : List Bracket) :
    Delimited (afterOpening bracket outer) := by
  refine TakesFront.of_first_behind_blanks (fun s => ?_) nofun fun c hblank => ?_
  · simp only [afterOpening, skipBlanks_skipBlanks]
  · by_cases hclose : c = bracket.closing
    · refine .behind (delimited_afterValue outer) fun s => ?_
      simp only [afterOpening, skipBlanks_cons hblank, if_pos hclose]
    · refine .before ((delimited_enter bracket).bind fun _ =>
        TakesFront.pure (.inl (bracket :: outer))) fun s => ?_
      simp [afterOpening, skipBlanks_cons hblank, hclose]
      rfl

theorem local_skipStep (outer : List Bracket) : Local (skipStep outer) := by
  have hafter := (delimited_afterValue outer).local
  have hword (word : List Char) : Local (readWord word >>= fun _ => afterValue outer) :=
    (delimited_readWord word).bind fun _ => hafter
  have hnumber : Local (skipNumber >>= fun _ => afterValue outer) :=
    local_skipNumber.bind fun _ => hafter
  have hnone : Local (Reader.failPeek .expectedValue : Reader (List Bracket ⊕ Unit)) :=
    TakesFront.of_gives_nothing nofun
  refine (TakesFront.of_first nofun fun c => ?_).startValue
  by_cases hn : c = 'n'
  · subst hn
    exact .behind (hword ['u', 'l', 'l']) fun _ => rfl
  by_cases ht : c = 't'
  · subst ht
    exact .behind (hword ['r', 'u', 'e']) fun _ => rfl
  by_cases hf : c = 'f'
  · subst hf
    exact .behind (hword ['a', 'l', 's', 'e']) fun _ => rfl
  by_cases hquote : c = '"'
  · subst hquote
    exact .behind (delimited_skipTextTail.bind fun _ => hafter) fun _ => rfl
  by_cases hlist : c = '['
  · subst hlist
    exact .behind (delimited_afterOpening .list outer).local fun _ => rfl
  by_cases hobject : c = '{'
  · subst hobject
    exact .behind (delimited_afterOpening .object outer).local fun _ => rfl
  by_cases hminus : c = '-'
  · subst hminus
    exact .behind hnumber fun _ => rfl
  · refine .before (hnumber.onDigit hnone) fun s => ?_
    simp [hn, ht, hf, hquote, hlist, hobject, hminus]

theorem local_skipValue : Local skipValue := Local.iterate local_skipStep []

end Json
end PascalTree
