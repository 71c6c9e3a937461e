import FleetTelemetry.Json.Skip
import FleetTelemetry.Proofs.Json.Numbers

/-!
# The grammar of JSON

A JSON text is a row of tokens with any number of blanks around each of them. Tokens are marks,
words, numbers and strings; the grammar says which rows of them are values, however deep these
nest. It does not say what a value means, so a string is anything between quotes without control
characters and unknown escapes, and a number may be as large as it likes.
-/

namespace FleetTelemetry.Json

open Reader Text

/-! ## Tokens -/

def IsDigits (s : Bytes) : Prop := s ≠ [] ∧ ∀ b ∈ s, isDigitByte b = true

/-- The digits of a whole number: a zero stands alone. -/
def IsWhole (s : Bytes) : Prop := s = [0x30] ∨ IsDigits s ∧ s.head? ≠ some 0x30

def IsFraction (s : Bytes) : Prop := s = [] ∨ ∃ digits, s = 0x2E :: digits ∧ IsDigits digits

def IsExponent (s : Bytes) : Prop :=
  s = [] ∨ ∃ letter sign digits, s = letter :: (sign ++ digits) ∧
    (letter = 0x65 ∨ letter = 0x45) ∧ (sign = [] ∨ sign = [0x2B] ∨ sign = [0x2D]) ∧
    IsDigits digits

def IsUnsigned (s : Bytes) : Prop :=
  ∃ whole fraction exponent, s = whole ++ (fraction ++ exponent) ∧ IsWhole whole ∧
    IsFraction fraction ∧ IsExponent exponent

def IsHex (digits : Bytes) (n : Nat) : Prop :=
  ∃ a b c d i j k l, digits = [a, b, c, d] ∧ hexValue? a = some i ∧ hexValue? b = some j ∧
    hexValue? c = some k ∧ hexValue? d = some l ∧ n = ((i * 16 + j) * 16 + k) * 16 + l

/-- What may stand between the quotes of a string. -/
inductive IsStringText : Bytes → Prop where
  | nil : IsStringText []
  | plain {b : UInt8} {s : Bytes} (hb : IsPlain b) (h : IsStringText s) : IsStringText (b :: s)
  | letter {b byte : UInt8} {s : Bytes} (hb : letterEscape? (toChar b) = some byte)
      (h : IsStringText s) : IsStringText (0x5C :: b :: s)
  | number {digits s : Bytes} {n : Nat} (hn : IsHex digits n) (h : IsStringText s) :
      IsStringText (0x5C :: 0x75 :: (digits ++ s))

def quote (s : Bytes) : Bytes := 0x22 :: (s ++ [0x22])

inductive IsScalar : Bytes → Prop where
  | null : IsScalar (encode ['n', 'u', 'l', 'l'])
  | boolean (value : Bool) : IsScalar (encode (printBoolean value))
  | string {s : Bytes} (h : IsStringText s) : IsScalar (quote s)
  | unsigned {s : Bytes} (h : IsUnsigned s) : IsScalar s
  | negative {s : Bytes} (h : IsUnsigned s) : IsScalar (0x2D :: s)

/-! ## Values -/

def Frame.opening : Frame → Bytes
  | .list => [0x5B]
  | .object => [0x7B]

def Frame.closing : Frame → Bytes
  | .list => [0x5D]
  | .object => [0x7D]

/-- The tokens of the items inside a frame, with commas between them, and of its closing mark. The
flag tells that no item stands before them. -/
def separated (closing : Bytes) : Bool → List (List Bytes) → List Bytes
  | _, [] => [closing]
  | true, item :: items => item ++ separated closing false items
  | false, item :: items => [0x2C] :: (item ++ separated closing false items)

def Frame.tokens (frame : Frame) (items : List (List Bytes)) : List Bytes :=
  frame.opening :: separated frame.closing true items

/-- A member of an object as it is written: its key between the quotes, and the tokens of its
value. -/
structure Member where
  key : Bytes
  value : List Bytes

def Member.tokens (member : Member) : List Bytes := quote member.key :: [0x3A] :: member.value

/-- The rows of tokens that are values. -/
inductive IsValue : List Bytes → Prop where
  | scalar {token : Bytes} (h : IsScalar token) : IsValue [token]
  | list {items : List (List Bytes)} (h : ∀ item ∈ items, IsValue item) :
      IsValue (Frame.list.tokens items)
  | object {members : List Member} (hkeys : ∀ member ∈ members, IsStringText member.key)
      (h : ∀ member ∈ members, IsValue member.value) :
      IsValue (Frame.object.tokens (members.map Member.tokens))

/-! ## Texts -/

/-- Tokens stand at the front of an input, each after any number of blanks, and the rest follows
the last of them. -/
inductive Lexes : List Bytes → Bytes → Bytes → Prop where
  | nil (s : Bytes) : Lexes [] s s
  | cons {token blanks s rest : Bytes} {tokens : List Bytes}
      (hblanks : ∀ b ∈ blanks, isBlankByte b = true) (h : Lexes tokens s rest) :
      Lexes (token :: tokens) (blanks ++ (token ++ s)) rest

/-- A whole text of some tokens. -/
def IsText (tokens : List Bytes) (text : Bytes) : Prop :=
  ∃ rest, Lexes tokens text rest ∧ rest.all isBlankByte = true

/-- A text of an object with some members. -/
structure IsObject (members : List Member) (text : Bytes) : Prop where
  keys : ∀ member ∈ members, IsStringText member.key
  values : ∀ member ∈ members, IsValue member.value
  text : IsText (Frame.object.tokens (members.map Member.tokens)) text

section

variable {tokens more : List Bytes} {token s mid rest blanks : Bytes} {b : UInt8}

theorem lexes_cons_iff : Lexes (token :: tokens) s rest ↔
    ∃ blanks mid, (∀ b ∈ blanks, isBlankByte b = true) ∧ s = blanks ++ (token ++ mid) ∧
      Lexes tokens mid rest := by
  constructor
  · rintro ⟨⟩
    case cons blanks mid hblanks h => exact ⟨blanks, mid, hblanks, rfl, h⟩
  · rintro ⟨blanks, mid, hblanks, rfl, h⟩
    exact .cons hblanks h

theorem quote_append (text rest : Bytes) : quote text ++ rest = 0x22 :: (text ++ 0x22 :: rest) := by
  simp [quote]

theorem Lexes.eq_of_nil (h : Lexes [] s rest) : s = rest := by
  cases h
  rfl

theorem lexes_append_iff :
    Lexes (tokens ++ more) s rest ↔ ∃ mid, Lexes tokens s mid ∧ Lexes more mid rest := by
  induction tokens generalizing s with
  | nil =>
    constructor
    · intro h
      exact ⟨s, .nil s, h⟩
    · rintro ⟨mid, hnil, h⟩
      rwa [hnil.eq_of_nil]
  | cons token tokens ih =>
    rw [List.cons_append, lexes_cons_iff]
    constructor
    · rintro ⟨blanks, t, hblanks, rfl, h⟩
      obtain ⟨mid, hfront, hmore⟩ := ih.mp h
      exact ⟨mid, .cons hblanks hfront, hmore⟩
    · rintro ⟨mid, hfront, hmore⟩
      obtain ⟨blanks, t, hblanks, rfl, h⟩ := lexes_cons_iff.mp hfront
      exact ⟨blanks, t, hblanks, rfl, ih.mpr ⟨mid, h, hmore⟩⟩

theorem Lexes.append (h : Lexes tokens s mid) (hmore : Lexes more mid rest) :
    Lexes (tokens ++ more) s rest :=
  lexes_append_iff.mpr ⟨mid, h, hmore⟩

theorem Lexes.front (token : Bytes) (h : Lexes tokens s rest) :
    Lexes (token :: tokens) (token ++ s) rest :=
  .cons (fun _ hb => absurd hb List.not_mem_nil) h

theorem lexes_singleton (token rest : Bytes) : Lexes [token] (token ++ rest) rest :=
  .front token (.nil rest)

theorem lexes_cons_iff_dropWhile (hb : isBlankByte b = false) :
    Lexes ((b :: token) :: tokens) s rest ↔
      ∃ mid, s.dropWhile isBlankByte = b :: (token ++ mid) ∧ Lexes tokens mid rest := by
  rw [lexes_cons_iff]
  constructor
  · rintro ⟨blanks, mid, hblanks, rfl, h⟩
    refine ⟨mid, ?_, h⟩
    rw [List.dropWhile_append_of_pos hblanks, List.cons_append]
    exact List.dropWhile_cons_of_neg (by simp [hb])
  · rintro ⟨mid, hdrop, h⟩
    refine ⟨s.takeWhile isBlankByte, mid, List.all_eq_true.mp List.all_takeWhile, ?_, h⟩
    rw [List.cons_append, ← hdrop, List.takeWhile_append_dropWhile]

private theorem Lexes.after_blanks (hblanks : ∀ b ∈ blanks, isBlankByte b = true)
    (h : Lexes (token :: tokens) s rest) : Lexes (token :: tokens) (blanks ++ s) rest := by
  obtain ⟨more, mid, hmore, rfl, hrest⟩ := lexes_cons_iff.mp h
  rw [← List.append_assoc]
  refine .cons (fun b hb => ?_) hrest
  rcases List.mem_append.mp hb with hb | hb
  · exact hblanks b hb
  · exact hmore b hb

theorem Lexes.blank (hb : isBlankByte b = true) (h : Lexes (token :: tokens) s rest) :
    Lexes (token :: tokens) (b :: s) rest :=
  @Lexes.after_blanks tokens token s rest [b] (by simpa using hb) h

theorem Lexes.of_dropWhile (h : Lexes (token :: tokens) (s.dropWhile isBlankByte) rest) :
    Lexes (token :: tokens) s rest := by
  have hblanks := h.after_blanks (List.all_eq_true.mp (@List.all_takeWhile _ isBlankByte s))
  rwa [List.takeWhile_append_dropWhile] at hblanks

theorem lexes_singleton_iff (hb : isBlankByte b = false) :
    Lexes [b :: token] s rest ↔ s.dropWhile isBlankByte = b :: (token ++ rest) := by
  rw [lexes_cons_iff_dropWhile hb]
  constructor
  · rintro ⟨mid, hdrop, h⟩
    rw [hdrop, h.eq_of_nil]
  · intro hdrop
    exact ⟨rest, hdrop, .nil rest⟩

end

end FleetTelemetry.Json
