import Facet.Numeral
import Facet.Words

namespace Facet

/-- A value as another program sends it. A number keeps its spelling, because a whole number written
with a fraction or an exponent does not count things. -/
inductive Payload where
  | null
  | bool (value : Bool)
  | number (text : List Char)
  | string (text : String)
  | list (items : List Payload)
  | record (fields : List (String × Payload))

namespace Payload

/-- The value of a field. Of fields with the same name the last one counts. -/
def field? (fields : List (String × Payload)) (name : String) : Option Payload :=
  (fields.reverse.find? (·.1 == name)).map Prod.snd

inductive Token where
  | scalar (value : Payload)
  | openList
  | closeList
  | openRecord
  | closeRecord
  | comma
  | colon

def hexDigit? (c : Char) : Option Nat :=
  if c.isDigit then some (c.toNat - '0'.toNat)
  else if 'a' ≤ c ∧ c ≤ 'f' then some (c.toNat - 'a'.toNat + 10)
  else if 'A' ≤ c ∧ c ≤ 'F' then some (c.toNat - 'A'.toNat + 10)
  else none

def hexNumber? (digits : List Char) : Option Nat :=
  digits.foldlM (fun n c => (hexDigit? c).map (16 * n + ·)) 0

def escaped? : Char → Option Char
  | '"' => some '"'
  | '\\' => some '\\'
  | '/' => some '/'
  | 'b' => some '\x08'
  | 'f' => some '\x0c'
  | 'n' => some '\n'
  | 'r' => some '\r'
  | 't' => some '\t'
  | _ => none

/-- Reads up to the closing quote. Two escapes in a row may spell one character between them, its
high half first. -/
def readString : List Char → Option (List Char × List Char)
  | [] => none
  | '"' :: rest => some ([], rest)
  | '\\' :: 'u' :: a :: b :: c :: d :: rest =>
    match hexNumber? [a, b, c, d] with
    | none => none
    | some unit =>
      if unit < 0xd800 || 0xdfff < unit then
        (readString rest).map fun (text, after) => (Char.ofNat unit :: text, after)
      else match rest with
        | '\\' :: 'u' :: e :: f :: g :: h :: rest =>
          match hexNumber? [e, f, g, h] with
          | none => none
          | some low =>
            if unit < 0xdc00 && 0xdc00 ≤ low && low ≤ 0xdfff then
              (readString rest).map fun (text, after) =>
                (Char.ofNat (0x10000 + (unit - 0xd800) * 0x400 + (low - 0xdc00)) :: text, after)
            else none
        | _ => none
  | '\\' :: mark :: rest =>
    match escaped? mark with
    | none => none
    | some c => (readString rest).map fun (text, after) => (c :: text, after)
  | c :: rest =>
    if c.val < 32 || c = '\\' then none
    else (readString rest).map fun (text, after) => (c :: text, after)

def isNumberChar (c : Char) : Bool :=
  c.isDigit || c == '-' || c == '+' || c == '.' || c == 'e' || c == 'E'

/-- Whether the text spells a number: no needless zero in front, and digits on both sides of a
point. -/
def isNumberText (text : List Char) : Bool :=
  let body := match text with
    | '-' :: rest => rest
    | _ => text
  let whole := body.takeWhile Char.isDigit
  let wholeOk := whole == ['0'] || (whole != [] && whole.head? != some '0')
  let rest := body.dropWhile Char.isDigit
  match rest with
  | '.' :: after =>
    wholeOk && after.takeWhile Char.isDigit != [] &&
      (readExponent (after.dropWhile Char.isDigit)).isSome
  | _ => wholeOk && (readExponent rest).isSome

/-- Reads one token from a text that does not begin with a space. -/
def readToken : List Char → Option (Token × List Char)
  | '[' :: rest => some (.openList, rest)
  | ']' :: rest => some (.closeList, rest)
  | '\x7b' :: rest => some (.openRecord, rest)
  | '\x7d' :: rest => some (.closeRecord, rest)
  | ',' :: rest => some (.comma, rest)
  | ':' :: rest => some (.colon, rest)
  | '"' :: rest =>
    (readString rest).map fun (text, after) => (.scalar (.string (String.ofList text)), after)
  | 'n' :: 'u' :: 'l' :: 'l' :: rest => some (.scalar .null, rest)
  | 't' :: 'r' :: 'u' :: 'e' :: rest => some (.scalar (.bool true), rest)
  | 'f' :: 'a' :: 'l' :: 's' :: 'e' :: rest => some (.scalar (.bool false), rest)
  | text =>
    let number := text.takeWhile isNumberChar
    if isNumberText number then some (.scalar (.number number), text.dropWhile isNumberChar)
    else none

def isSpace (c : Char) : Bool :=
  c == ' ' || c == '\t' || c == '\n' || c == '\r'

theorem readString_length_lt {text rest found : List Char}
    (h : readString text = some (found, rest)) : rest.length < text.length := by
  fun_induction readString text generalizing found rest <;>
    grind [Option.map_eq_some_iff, List.length_cons]

theorem isNumberText_nil : isNumberText [] = false := rfl

theorem readToken_length_lt {text rest : List Char} {token : Token}
    (h : readToken text = some (token, rest)) : rest.length < text.length := by
  unfold readToken at h
  split at h
  case h_7 =>
    obtain ⟨⟨found, after⟩, hread, h⟩ := Option.map_eq_some_iff.mp h
    cases h
    exact Nat.lt_succ_of_lt (readString_length_lt hread)
  case h_11 =>
    simp only at h
    split at h
    next hnumber =>
      cases Option.some.inj h
      have parts : (text.takeWhile isNumberChar ++ text.dropWhile isNumberChar).length =
          text.length := by
        rw [List.takeWhile_append_dropWhile]
      have taken : text.takeWhile isNumberChar ≠ [] := by
        intro empty
        rw [empty, isNumberText_nil] at hnumber
        cases hnumber
      have := List.length_pos_iff.mpr taken
      rw [List.length_append] at parts
      omega
    next => cases h
  all_goals
    cases Option.some.inj h
    simp only [List.length_cons]
    omega

def tokens? (text : List Char) : Option (List Token) :=
  if text.dropWhile isSpace = [] then some []
  else
    match _read : readToken (text.dropWhile isSpace) with
    | none => none
    | some (token, after) => (tokens? after).map (token :: ·)
termination_by text.length
decreasing_by
  have := readToken_length_lt _read
  have := (List.dropWhile_suffix isSpace (l := text)).length_le
  omega

/-- A list or a record that is still open, its last part first. -/
inductive Frame where
  | list (items : List Payload)
  | record (fields : List (String × Payload)) (name : String)

inductive Expecting where
  | value
  | firstItem
  | firstName
  | name (fields : List (String × Payload))
  | colon (fields : List (String × Payload)) (name : String)
  | more (done : Payload)

/-- Takes one token, with the open lists and records on a stack. -/
def step (expecting : Expecting) (stack : List Frame) (token : Token) :
    Option (Expecting × List Frame) :=
  match expecting, token with
  | .value, .scalar v | .firstItem, .scalar v => some (.more v, stack)
  | .value, .openList | .firstItem, .openList => some (.firstItem, .list [] :: stack)
  | .value, .openRecord | .firstItem, .openRecord => some (.firstName, stack)
  | .firstItem, .closeList =>
    match stack with
    | .list [] :: below => some (.more (.list []), below)
    | _ => none
  | .firstName, .scalar (.string name) => some (.colon [] name, stack)
  | .firstName, .closeRecord => some (.more (.record []), stack)
  | .name fields, .scalar (.string name) => some (.colon fields name, stack)
  | .colon fields name, .colon => some (.value, .record fields name :: stack)
  | .more v, .comma =>
    match stack with
    | .list items :: below => some (.value, .list (v :: items) :: below)
    | .record fields name :: below => some (.name ((name, v) :: fields), below)
    | [] => none
  | .more v, .closeList =>
    match stack with
    | .list items :: below => some (.more (.list (v :: items).reverse), below)
    | _ => none
  | .more v, .closeRecord =>
    match stack with
    | .record fields name :: below => some (.more (.record ((name, v) :: fields).reverse), below)
    | _ => none
  | _, _ => none

def ofText? (text : String) : Option Payload := do
  let tokens ← tokens? text.toList
  let (expecting, stack) ← tokens.foldlM (fun state token => step state.1 state.2 token)
    (Expecting.value, ([] : List Frame))
  match expecting, stack with
  | .more v, [] => some v
  | _, _ => none

end Payload

end Facet
