import Mathlib.Data.List.TakeWhile
import Mathlib.Data.UInt

/-!
# Reading JSON text byte by byte

A reader for the JSON grammar over bytes: strings with every escape (surrogate
pairs included, code points as UTF-8), numbers, literals, arrays and objects with
white space between tokens. Bytes from 0x80 on pass through, so contents need not
be valid UTF-8. The second half has the rules for writing objects that the reader
takes back, member by member.
-/

namespace IntegerSortLci.Foundations

set_option autoImplicit false

/-- A JSON value; a number is kept as its text. -/
inductive Json where
  | null
  | boolean (value : Bool)
  | number (text : List UInt8)
  | string (content : List UInt8)
  | array (items : List Json)
  | object (members : List (List UInt8 × Json))

namespace Json

section Strings

def hexValue (digit : UInt8) : Option Nat :=
  if 48 ≤ digit ∧ digit ≤ 57 then some (digit.toNat - 48)
  else if 97 ≤ digit ∧ digit ≤ 102 then some (digit.toNat - 87)
  else if 65 ≤ digit ∧ digit ≤ 70 then some (digit.toNat - 55)
  else none

/-- The code unit of four hexadecimal digits. -/
def codeUnit (a b c d : UInt8) : Option Nat := do
  let a ← hexValue a
  let b ← hexValue b
  let c ← hexValue c
  let d ← hexValue d
  return 4096 * a + 256 * b + 16 * c + d

def utf8 (codePoint : Nat) : List UInt8 := String.utf8EncodeChar (Char.ofNat codePoint)

/-- The escapes of one character, `u` apart. -/
def shortEscape (letter : UInt8) : Option UInt8 :=
  if letter = 34 ∨ letter = 92 ∨ letter = 47 then some letter
  else if letter = 98 then some 8
  else if letter = 102 then some 12
  else if letter = 110 then some 10
  else if letter = 114 then some 13
  else if letter = 116 then some 9
  else none

def prepend (bytes : List UInt8) (decoded : Option (List UInt8 × List UInt8)) :
    Option (List UInt8 × List UInt8) :=
  decoded.map fun (content, rest) => (bytes ++ content, rest)

/-- The content of a string and what follows its closing quote; the input starts
behind the opening quote. -/
def decodeString : List UInt8 → Option (List UInt8 × List UInt8)
  | [] => none
  | byte :: rest =>
      if byte = 34 then some ([], rest)
      else if byte = 92 then
        match rest with
        | [] => none
        | letter :: rest =>
            if letter = 117 then
              match rest with
              | a :: b :: c :: d :: rest =>
                  match codeUnit a b c d with
                  | none => none
                  | some unit =>
                      if 0xD800 ≤ unit ∧ unit < 0xDC00 then
                        -- a high surrogate is read with the low one behind it
                        match rest with
                        | slash :: u :: a :: b :: c :: d :: rest =>
                            match codeUnit a b c d with
                            | none => none
                            | some low =>
                                if slash = 92 ∧ u = 117 ∧ 0xDC00 ≤ low ∧ low < 0xE000 then
                                  prepend
                                    (utf8 (0x10000 + 1024 * (unit - 0xD800) + (low - 0xDC00)))
                                    (decodeString rest)
                                else none
                        | _ => none
                      else if 0xDC00 ≤ unit ∧ unit < 0xE000 then none
                      else prepend (utf8 unit) (decodeString rest)
              | _ => none
            else
              match shortEscape letter with
              | none => none
              | some value => prepend [value] (decodeString rest)
      else if byte < 32 then none
      else prepend [byte] (decodeString rest)

/-- A surrogate pair is one code point of four bytes. -/
example : decodeString
    [92, 117, 100, 56, 51, 100, 92, 117, 68, 69, 48, 48, 34, 125] =
      some ([0xF0, 0x9F, 0x98, 0x80], [125]) := by decide

end Strings

section Numbers

def isDigit (byte : UInt8) : Bool := 48 ≤ byte && byte ≤ 57

/-- No leading zero. -/
def isWhole (digits : List UInt8) : Bool :=
  digits = [48] || (digits.head? ≠ some 48 && digits ≠ [] && digits.all isDigit)

def isExponent : List UInt8 → Bool
  | [] => true
  | letter :: rest =>
      let digits := if rest.head? = some 43 ∨ rest.head? = some 45 then rest.tail else rest
      (letter = 101 || letter = 69) && digits ≠ [] && digits.all isDigit

def isFraction (text : List UInt8) : Bool :=
  if text.head? = some 46 then
    text.tail.head?.any isDigit && isExponent (text.tail.dropWhile isDigit)
  else isExponent text

def isNumber (text : List UInt8) : Bool :=
  let unsigned := if text.head? = some 45 then text.tail else text
  isWhole (unsigned.takeWhile isDigit) && isFraction (unsigned.dropWhile isDigit)

/-- The bytes that numbers are made of. -/
def isNumberByte (byte : UInt8) : Bool :=
  isDigit byte || byte = 43 || byte = 45 || byte = 46 || byte = 69 || byte = 101

end Numbers

section Reader

def isSpace (byte : UInt8) : Bool := byte = 32 || byte = 9 || byte = 10 || byte = 13

def skipSpace (text : List UInt8) : List UInt8 := text.dropWhile isSpace

/-- Takes the token `byte`. -/
def expect (byte : UInt8) (text : List UInt8) : Option (List UInt8) :=
  match skipSpace text with
  | first :: rest => if first = byte then some rest else none
  | [] => none

/-- `true`, `false` and `null`. -/
def literals : List (List UInt8 × Json) :=
  [([116, 114, 117, 101], .boolean true), ([102, 97, 108, 115, 101], .boolean false),
    ([110, 117, 108, 108], .null)]

/-- A value that is neither a string nor a container. -/
def readAtom (text : List UInt8) : Option (Json × List UInt8) :=
  match literals.find? fun literal => literal.1.isPrefixOf text with
  | some literal => some (literal.2, text.drop literal.1.length)
  | none =>
      let token := text.takeWhile isNumberByte
      if isNumber token then some (.number token, text.dropWhile isNumberByte) else none

mutual

/-- One value and what follows it; `fuel` bounds the nesting and the lengths of the
containers, for which the length of the text is enough. -/
def readValue : Nat → List UInt8 → Option (Json × List UInt8)
  | 0, _ => none
  | fuel + 1, text =>
      match skipSpace text with
      | [] => none
      | byte :: rest =>
          if byte = 34 then (decodeString rest).map fun (content, rest) => (.string content, rest)
          else if byte = 123 then
            match expect 125 rest with
            | some rest => some (.object [], rest)
            | none => (readMembers fuel rest).map fun (members, rest) => (.object members, rest)
          else if byte = 91 then
            match expect 93 rest with
            | some rest => some (.array [], rest)
            | none => (readItems fuel rest).map fun (items, rest) => (.array items, rest)
          else readAtom (byte :: rest)

/-- The members of an object up to its closing brace. -/
def readMembers : Nat → List UInt8 → Option (List (List UInt8 × Json) × List UInt8)
  | 0, _ => none
  | fuel + 1, text => do
      let rest ← expect 34 text
      let (name, rest) ← decodeString rest
      let rest ← expect 58 rest
      let (value, rest) ← readValue fuel rest
      match expect 44 rest with
      | some rest =>
          let (members, rest) ← readMembers fuel rest
          return ((name, value) :: members, rest)
      | none =>
          let rest ← expect 125 rest
          return ([(name, value)], rest)

/-- The items of an array up to its closing bracket. -/
def readItems : Nat → List UInt8 → Option (List Json × List UInt8)
  | 0, _ => none
  | fuel + 1, text => do
      let (value, rest) ← readValue fuel text
      match expect 44 rest with
      | some rest =>
          let (items, rest) ← readItems fuel rest
          return (value :: items, rest)
      | none =>
          let rest ← expect 93 rest
          return ([value], rest)

end

/-- The value of a whole text. -/
def read (text : List UInt8) : Option Json :=
  match readValue text.length text with
  | some (value, rest) => if skipSpace rest = [] then some value else none
  | none => none

/-- The first member of that name. -/
def member (name : List UInt8) : Json → Option Json
  | .object members => (members.find? fun member => member.1 = name).map Prod.snd
  | _ => none

end Reader

section Encoding

/-- A text inside a string that stands for `content`. -/
def Encodes (text content : List UInt8) : Prop :=
  ∀ rest, decodeString (text ++ rest) = prepend content (decodeString rest)

/-- A byte that stands for itself inside a string. -/
def Plain (byte : UInt8) : Prop := byte ≠ 34 ∧ byte ≠ 92 ∧ ¬byte < 32

instance (byte : UInt8) : Decidable (Plain byte) :=
  inferInstanceAs (Decidable (byte ≠ 34 ∧ byte ≠ 92 ∧ ¬byte < 32))

theorem prepend_nil (decoded : Option (List UInt8 × List UInt8)) :
    prepend [] decoded = decoded := by
  cases decoded with
  | none => rfl
  | some decoded => rfl

theorem prepend_append (first second : List UInt8) (decoded : Option (List UInt8 × List UInt8)) :
    prepend first (prepend second decoded) = prepend (first ++ second) decoded := by
  cases decoded with
  | none => rfl
  | some decoded => simp [prepend]

theorem Encodes.nil : Encodes [] [] := fun rest => (prepend_nil (decodeString rest)).symm

theorem Encodes.append {first second content more : List UInt8} (left : Encodes first content)
    (right : Encodes second more) : Encodes (first ++ second) (content ++ more) := by
  intro rest
  rw [List.append_assoc, left, right, prepend_append]

/-- Escaping byte by byte is undone byte by byte. -/
theorem Encodes.flatMap {escape : UInt8 → List UInt8}
    (each : ∀ byte, Encodes (escape byte) [byte]) (content : List UInt8) :
    Encodes (content.flatMap escape) content := by
  induction content with
  | nil => exact .nil
  | cons byte content ih => exact (each byte).append ih

theorem Encodes.plain {byte : UInt8} (plain : Plain byte) : Encodes [byte] [byte] := by
  intro rest
  obtain ⟨quote, slash, printable⟩ := plain
  rw [List.singleton_append, decodeString.eq_def]
  simp only [if_neg quote, if_neg slash, if_neg printable]

theorem Encodes.plain_text {content : List UInt8} (plain : ∀ byte ∈ content, Plain byte) :
    Encodes content content := by
  induction content with
  | nil => exact .nil
  | cons byte content ih =>
      have first := Encodes.plain (plain byte List.mem_cons_self)
      exact first.append (ih fun other member => plain other (List.mem_cons_of_mem _ member))

theorem Encodes.short {letter value : UInt8} (other : letter ≠ 117)
    (escape : shortEscape letter = some value) : Encodes [92, letter] [value] := by
  intro rest
  rw [List.cons_append, List.singleton_append, decodeString.eq_def]
  simp [other, escape]

theorem Encodes.unicode {a b c d : UInt8} {unit : Nat} (read : codeUnit a b c d = some unit)
    (plane : unit < 0xD800) : Encodes [92, 117, a, b, c, d] (utf8 unit) := by
  intro rest
  have high : ¬(0xD800 ≤ unit ∧ unit < 0xDC00) := by omega
  have low : ¬(0xDC00 ≤ unit ∧ unit < 0xE000) := by omega
  simp only [List.cons_append, List.nil_append]
  rw [decodeString.eq_def]
  simp [read, high, low]

/-- The decoder stops at the quote behind the text. -/
theorem Encodes.closed {text content : List UInt8} (encodes : Encodes text content)
    (rest : List UInt8) : decodeString (text ++ 34 :: rest) = some (content, rest) := by
  rw [encodes, decodeString.eq_def]
  simp [prepend]

end Encoding

section Objects

/-- A text that is read as `value` in front of anything but more of a number. -/
def ReadsAs (text : List UInt8) (value : Json) : Prop :=
  ∀ fuel rest, (∀ byte, rest.head? = some byte → isNumberByte byte = false) →
    readValue (fuel + 1) (text ++ rest) = some (value, rest)

theorem expect_token {byte : UInt8} (rest : List UInt8) (token : isSpace byte = false) :
    expect byte (byte :: rest) = some rest := by
  unfold expect skipSpace
  rw [List.dropWhile_cons_of_neg (by simp [token])]
  simp

theorem expect_other {byte first : UInt8} (rest : List UInt8) (token : isSpace first = false)
    (other : first ≠ byte) : expect byte (first :: rest) = none := by
  unfold expect skipSpace
  rw [List.dropWhile_cons_of_neg (by simp [token])]
  simp [other]

theorem ReadsAs.string {text content : List UInt8} (encodes : Encodes text content) :
    ReadsAs (34 :: (text ++ [34])) (.string content) := by
  intro fuel rest _
  have token : skipSpace (34 :: (text ++ 34 :: rest)) = 34 :: (text ++ 34 :: rest) := rfl
  rw [List.cons_append, List.append_assoc, List.singleton_append, readValue, token]
  simp [encodes.closed rest]

theorem whole_digits {text : List UInt8} (whole : isWhole text = true) :
    text ≠ [] ∧ ∀ byte ∈ text, isDigit byte = true := by
  unfold isWhole at whole
  rcases Bool.or_eq_true_iff.mp whole with zero | digits
  · obtain rfl := of_decide_eq_true zero
    refine ⟨List.cons_ne_nil _ _, ?_⟩
    intro byte member
    obtain rfl := List.mem_singleton.mp member
    rfl
  · simp only [Bool.and_eq_true, List.all_eq_true, decide_eq_true_eq] at digits
    exact ⟨digits.1.2, digits.2⟩

theorem digit_range {byte : UInt8} (digit : isDigit byte = true) : 48 ≤ byte ∧ byte ≤ 57 := by
  simpa [isDigit] using digit

/-- A digit starts no other token. -/
theorem digit_token {byte : UInt8} (digit : isDigit byte = true) :
    isSpace byte = false ∧ byte ≠ 34 ∧ byte ≠ 123 ∧ byte ≠ 91 ∧ byte ≠ 45 ∧ byte ≠ 116 ∧
      byte ≠ 102 ∧ byte ≠ 110 := by
  obtain ⟨low, high⟩ := digit_range digit
  have low : 48 ≤ byte.toNat := low
  have high : byte.toNat ≤ 57 := high
  have apart : ∀ other : UInt8, other.toNat < 48 ∨ 57 < other.toNat → byte ≠ other := by
    rintro other outside rfl
    omega
  refine ⟨?_, apart _ (by decide), apart _ (by decide), apart _ (by decide), apart _ (by decide),
    apart _ (by decide), apart _ (by decide), apart _ (by decide)⟩
  simp [isSpace, apart 32 (by decide), apart 9 (by decide), apart 10 (by decide),
    apart 13 (by decide)]

theorem digit_plain {byte : UInt8} (digit : isDigit byte = true) : Plain byte := by
  obtain ⟨low, high⟩ := digit_range digit
  refine ⟨(digit_token digit).2.1, ?_, UInt8.not_lt.mpr (UInt8.le_trans (by decide) low)⟩
  rintro rfl
  exact absurd high (by decide)

theorem whole_number {text : List UInt8} (whole : isWhole text = true) : isNumber text = true := by
  obtain ⟨nonempty, digits⟩ := whole_digits whole
  obtain ⟨byte, rest, rfl⟩ := List.exists_cons_of_ne_nil nonempty
  have unsigned : byte ≠ 45 := (digit_token (digits byte List.mem_cons_self)).2.2.2.2.1
  have all : (byte :: rest).takeWhile isDigit = byte :: rest :=
    List.takeWhile_eq_self_iff.mpr digits
  have ended : (byte :: rest).dropWhile isDigit = [] := List.dropWhile_eq_nil_iff.mpr digits
  unfold isNumber
  rw [List.head?_cons, if_neg (fun same => unsigned (Option.some.inj same))]
  simp only [all, ended, whole]
  rfl

/-- A number is read up to its end. -/
theorem ReadsAs.number {text : List UInt8} (whole : isWhole text = true) :
    ReadsAs text (.number text) := by
  intro fuel rest stops
  obtain ⟨nonempty, digits⟩ := whole_digits whole
  have numberBytes : ∀ byte ∈ text, isNumberByte byte = true := by
    intro byte member
    simp [isNumberByte, digits byte member]
  have ends : rest.takeWhile isNumberByte = [] ∧ rest.dropWhile isNumberByte = rest := by
    cases rest with
    | nil => exact ⟨rfl, rfl⟩
    | cons first rest =>
        have stop := stops first rfl
        exact ⟨List.takeWhile_cons_of_neg (by simp [stop]),
          List.dropWhile_cons_of_neg (by simp [stop])⟩
  have taken : (text ++ rest).takeWhile isNumberByte = text := by
    rw [List.takeWhile_append_of_pos numberBytes, ends.1, List.append_nil]
  have dropped : (text ++ rest).dropWhile isNumberByte = rest := by
    rw [List.dropWhile_append_of_pos numberBytes, ends.2]
  obtain ⟨byte, digitsRest, rfl⟩ := List.exists_cons_of_ne_nil nonempty
  obtain ⟨token, quote, brace, bracket, _, t, f, n⟩ := digit_token (digits byte List.mem_cons_self)
  have noLiteral : literals.find? (fun literal => literal.1.isPrefixOf
      (byte :: digitsRest ++ rest)) = none := by
    simp [literals, Ne.symm t, Ne.symm f, Ne.symm n]
  have atom : readAtom (byte :: digitsRest ++ rest) =
      some (.number (byte :: digitsRest), rest) := by
    unfold readAtom
    rw [noLiteral]
    simp only [taken, dropped, whole_number whole, if_true]
  have skipped : skipSpace (byte :: (digitsRest ++ rest)) = byte :: (digitsRest ++ rest) :=
    List.dropWhile_cons_of_neg (by simp [token])
  rw [List.cons_append, readValue, skipped]
  simp only [if_neg quote, if_neg brace, if_neg bracket]
  exact atom

/-- The text of a member from the texts of its name and its value. -/
def memberText (member : List UInt8 × List UInt8) : List UInt8 :=
  34 :: (member.1 ++ 34 :: 58 :: member.2)

def membersText : List (List UInt8 × List UInt8) → List UInt8
  | [] => []
  | [member] => memberText member
  | member :: next :: members => memberText member ++ 44 :: membersText (next :: members)

def objectText (members : List (List UInt8 × List UInt8)) : List UInt8 :=
  123 :: (membersText members ++ [125])

/-- The texts of a member stand for its name and its value. -/
def MemberReads (text : List UInt8 × List UInt8) (member : List UInt8 × Json) : Prop :=
  Encodes text.1 member.1 ∧ ReadsAs text.2 member.2

/-- One member, and then what follows it. -/
theorem read_members_step {text : List UInt8 × List UInt8} {member : List UInt8 × Json}
    (reads : MemberReads text member) (fuel : Nat) (rest : List UInt8)
    (stops : ∀ byte, rest.head? = some byte → isNumberByte byte = false) :
    readMembers (fuel + 2) (memberText text ++ rest) =
      match expect 44 rest with
      | some rest =>
          (readMembers (fuel + 1) rest).map fun (members, rest) => (member :: members, rest)
      | none => (expect 125 rest).map fun rest => ([member], rest) := by
  have value := reads.2 fuel rest stops
  have name := reads.1.closed (58 :: (text.2 ++ rest))
  unfold memberText
  rw [readMembers]
  simp only [List.cons_append, List.append_assoc]
  rw [expect_token _ rfl]
  simp only [Option.bind_eq_bind, Option.bind_some, name, expect_token _ (rfl : isSpace 58 = false),
    value]
  cases expect 44 rest with
  | none =>
      dsimp only
      cases expect 125 rest with
      | none => rfl
      | some rest => rfl
  | some rest =>
      dsimp only
      cases readMembers (fuel + 1) rest with
      | none => rfl
      | some members => rfl

theorem read_members {texts : List (List UInt8 × List UInt8)} {members : List (List UInt8 × Json)}
    (reads : List.Forall₂ MemberReads texts members) (nonempty : texts ≠ []) {fuel : Nat}
    (enough : texts.length < fuel) (rest : List UInt8) :
    readMembers fuel (membersText texts ++ 125 :: rest) = some (members, rest) := by
  induction reads generalizing fuel with
  | nil => exact absurd rfl nonempty
  | @cons text member texts members first others ih =>
      rw [List.length_cons] at enough
      obtain ⟨fuel, rfl⟩ : ∃ less, fuel = less + 2 := ⟨fuel - 2, by omega⟩
      cases others with
      | nil =>
          have closed : isNumberByte 125 = false := rfl
          rw [membersText, read_members_step first fuel _ (by simpa using closed),
            expect_other rest rfl (by decide), expect_token rest rfl]
          rfl
      | @cons next following texts members second others =>
          have comma : isNumberByte 44 = false := rfl
          have remaining := ih (List.cons_ne_nil next texts) (Nat.lt_of_succ_lt_succ enough)
          rw [membersText, List.append_assoc, List.cons_append,
            read_members_step first fuel _ (by simpa using comma), expect_token _ rfl]
          simp only [remaining]
          rfl

theorem members_text_length (texts : List (List UInt8 × List UInt8)) :
    texts.length ≤ (membersText texts).length := by
  fun_induction membersText texts with
  | case1 => exact Nat.le_refl 0
  | case2 member => simp [memberText]
  | case3 member next texts ih =>
      simp only [memberText, List.length_append, List.length_cons] at ih ⊢
      omega

/-- An object text is read as the object of its members. -/
theorem read_object {texts : List (List UInt8 × List UInt8)} {members : List (List UInt8 × Json)}
    (reads : List.Forall₂ MemberReads texts members) (nonempty : texts ≠ []) :
    read (objectText texts) = some (.object members) := by
  have length := members_text_length texts
  have opened : expect 125 (membersText texts ++ [125]) = none := by
    obtain ⟨text, rest, rfl⟩ := List.exists_cons_of_ne_nil nonempty
    cases rest with
    | nil => exact expect_other _ rfl (by decide)
    | cons next rest => exact expect_other _ rfl (by decide)
  have body := read_members reads nonempty
    (show texts.length < (membersText texts ++ [125]).length by
      rw [List.length_append, List.length_singleton]
      omega) []
  have skipped : skipSpace (objectText texts) = objectText texts := rfl
  unfold read
  rw [show (objectText texts).length = (membersText texts ++ [125]).length + 1 from rfl, readValue,
    skipped]
  unfold objectText
  simp only [opened, body]
  rfl

/-- An object text has no byte below those of its members. -/
theorem object_text_bytes {texts : List (List UInt8 × List UInt8)} {low : UInt8} (quote : low ≤ 34)
    (names : ∀ text ∈ texts, ∀ byte ∈ text.1, low ≤ byte)
    (values : ∀ text ∈ texts, ∀ byte ∈ text.2, low ≤ byte) :
    ∀ byte ∈ objectText texts, low ≤ byte := by
  have above : ∀ {token : UInt8}, 34 ≤ token → low ≤ token := UInt8.le_trans quote
  have member : ∀ text ∈ texts, ∀ byte ∈ memberText text, low ≤ byte := by
    intro text inside byte found
    simp only [memberText, List.mem_cons, List.mem_append] at found
    rcases found with rfl | named | rfl | rfl | valued
    · exact quote
    · exact names text inside byte named
    · exact quote
    · exact above (by decide)
    · exact values text inside byte valued
  have members : ∀ byte ∈ membersText texts, low ≤ byte := by
    clear names values
    fun_induction membersText texts with
    | case1 => nofun
    | case2 text => exact member text List.mem_cons_self
    | case3 text next texts ih =>
        intro byte found
        rcases List.mem_append.mp found with first | others
        · exact member text List.mem_cons_self byte first
        · rcases List.mem_cons.mp others with rfl | others
          · exact above (by decide)
          · exact ih (fun other inside => member other (List.mem_cons_of_mem _ inside)) byte others
  intro byte found
  simp only [objectText, List.mem_cons, List.mem_append, List.not_mem_nil, or_false] at found
  rcases found with rfl | inside | rfl
  · exact above (by decide)
  · exact members byte inside
  · exact above (by decide)

end Objects

section Lines

/-- The lines of a text; the last one may lack its line feed. -/
def lines : List UInt8 → List (List UInt8)
  | [] => []
  | byte :: rest =>
      if byte = 10 then [] :: lines rest
      else
        match lines rest with
        | [] => [[byte]]
        | line :: others => (byte :: line) :: others

theorem lines_line {line : List UInt8} (inside : ∀ byte ∈ line, byte ≠ 10) (rest : List UInt8) :
    lines (line ++ 10 :: rest) = line :: lines rest := by
  induction line with
  | nil => simp [lines]
  | cons byte line ih =>
      have other := inside byte List.mem_cons_self
      have later := ih fun byte member => inside byte (List.mem_cons_of_mem _ member)
      rw [List.cons_append, lines, if_neg other, later]

theorem lines_flatMap {texts : List (List UInt8)}
    (inside : ∀ text ∈ texts, ∀ byte ∈ text, byte ≠ 10) :
    lines (texts.flatMap fun text => text ++ [10]) = texts := by
  induction texts with
  | nil => rfl
  | cons text texts ih =>
      have later := ih fun other member => inside other (List.mem_cons_of_mem _ member)
      rw [List.flatMap_cons, List.append_assoc, List.singleton_append,
        lines_line (inside text List.mem_cons_self), later]

end Lines

end Json

end IntegerSortLci.Foundations
