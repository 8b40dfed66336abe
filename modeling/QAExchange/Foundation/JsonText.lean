import Mathlib.Data.List.Basic

/-! # JSON texts

The strings, numbers and objects of JSON as a grammar over characters, and a writer of objects that
puts quotes around its texts and escapes nothing.
-/

namespace QAExchange.Foundation

inductive Json
  | text (value : List Char)
  | number (lexeme : List Char)
  | object (members : List (List Char × Json))

/-- The character stands for itself in a string. -/
def Plain (char : Char) : Prop := char ≠ '\x22' ∧ char ≠ '\\' ∧ 32 ≤ char.toNat

instance decidablePlain (char : Char) : Decidable (Plain char) :=
  inferInstanceAs (Decidable (_ ∧ _ ∧ _))

def IsHex (digit : Char) : Prop :=
  digit.isDigit ∨ 'a' ≤ digit ∧ digit ≤ 'f' ∨ 'A' ≤ digit ∧ digit ≤ 'F'

def hexValue (digits : List Char) : ℕ :=
  digits.foldl (fun value digit => 16 * value +
    if digit.isDigit then digit.toNat - 48 else digit.toNat % 32 + 9) 0

/-- What stands behind the backslash, and the character that it stands for. -/
inductive ReadsEscape : List Char → Char → Prop
  | simple (named : (escape, char) ∈ [('\x22', '\x22'), ('\\', '\\'), ('/', '/'), ('b', '\x08'),
      ('f', '\x0c'), ('n', '\n'), ('r', '\r'), ('t', '\t')]) : ReadsEscape [escape] char
  | unit (length : digits.length = 4) (hex : ∀ digit ∈ digits, IsHex digit)
      (isChar : char.toNat = hexValue digits) : ReadsEscape ('u' :: digits) char
  | pair (highLength : high.length = 4) (lowLength : low.length = 4)
      (hex : ∀ digit ∈ high ++ low, IsHex digit)
      (isHigh : 0xd800 ≤ hexValue high ∧ hexValue high < 0xdc00)
      (isLow : 0xdc00 ≤ hexValue low ∧ hexValue low < 0xe000)
      (isChar : char.toNat =
        0x10000 + (hexValue high - 0xd800) * 0x400 + (hexValue low - 0xdc00)) :
      ReadsEscape ('u' :: high ++ '\\' :: 'u' :: low) char

inductive ReadsString : List Char → List Char → List Char → Prop
  | close : ReadsString ('\x22' :: rest) [] rest
  | plain (isPlain : Plain char) (later : ReadsString text value rest) :
      ReadsString (char :: text) (char :: value) rest
  | escape (escape : ReadsEscape escaped char) (splits : text = escaped ++ after)
      (later : ReadsString after value rest) : ReadsString ('\\' :: text) (char :: value) rest

def Digits (text : List Char) : Prop := text ≠ [] ∧ ∀ char ∈ text, char.isDigit

def IsNumber (lexeme : List Char) : Prop :=
  ∃ sign whole fraction exponent, lexeme = sign ++ whole ++ fraction ++ exponent ∧
    (sign = [] ∨ sign = ['-']) ∧ Digits whole ∧ (whole.head? = some '0' → whole = ['0']) ∧
    (fraction = [] ∨ ∃ digits, fraction = '.' :: digits ∧ Digits digits) ∧
    (exponent = [] ∨ ∃ mark direction digits, exponent = mark :: direction ++ digits ∧
      (mark = 'e' ∨ mark = 'E') ∧ direction ∈ [[], ['+'], ['-']] ∧ Digits digits)

abbrev IsBlank (char : Char) : Prop := char = ' ' ∨ char = '\t' ∨ char = '\n' ∨ char = '\r'

/-- There are blanks before the rest. -/
def Skips (text rest : List Char) : Prop :=
  ∃ blanks, (∀ char ∈ blanks, IsBlank char) ∧ text = blanks ++ rest

mutual

inductive ReadsValue : List Char → Json → List Char → Prop
  | text (quote : Skips text ('\x22' :: inside)) (string : ReadsString inside value rest) :
      ReadsValue text (.text value) rest
  | number (lexeme : Skips text (number ++ rest)) (isNumber : IsNumber number) :
      ReadsValue text (.number number) rest
  | object (brace : Skips text ('\x7b' :: inside)) (reads : ReadsMembers inside members rest) :
      ReadsValue text (.object members) rest

inductive ReadsMember : List Char → List Char → Json → List Char → Prop
  | named (quote : Skips text ('\x22' :: inside)) (name : ReadsString inside key afterName)
      (colon : Skips afterName (':' :: valueText)) (value : ReadsValue valueText json rest) :
      ReadsMember text key json rest

inductive ReadsMembers : List Char → List (List Char × Json) → List Char → Prop
  | last (member : ReadsMember text key json afterMember)
      (brace : Skips afterMember ('\x7d' :: rest)) : ReadsMembers text [(key, json)] rest
  | more (member : ReadsMember text key json afterMember)
      (comma : Skips afterMember (',' :: later)) (reads : ReadsMembers later members rest) :
      ReadsMembers text ((key, json) :: members) rest

end

def ReadsJson (text : List Char) (json : Json) : Prop :=
  ∃ rest, ReadsValue text json rest ∧ Skips rest []

theorem skips_cons_iff (notBlank : ¬ IsBlank char) :
    Skips (char :: text) (other :: rest) ↔ char = other ∧ text = rest := by
  constructor
  · rintro ⟨_ | ⟨blank, blanks⟩, allBlank, same⟩
    · exact List.cons_eq_cons.mp same
    · rw [(List.cons_eq_cons.mp same).1] at notBlank
      exact absurd (allBlank blank List.mem_cons_self) notBlank
  · rintro ⟨rfl, rfl⟩
    exact ⟨[], by simp, rfl⟩

theorem not_quote_of_isHex (isHex : IsHex digit) : digit ≠ '\x22' := by
  rintro rfl
  exact absurd isHex (by unfold IsHex; decide)

theorem ReadsEscape.quote_or (escape : ReadsEscape escaped char) :
    escaped = ['\x22'] ∨ escaped ≠ [] ∧ '\x22' ∉ escaped := by
  cases escape with
  | @simple escape =>
    by_cases isQuote : escape = '\x22'
    · exact .inl (congrArg (fun char => [char]) isQuote)
    · exact .inr ⟨List.cons_ne_nil _ _, fun member => isQuote (List.mem_singleton.mp member).symm⟩
  | unit _ hex =>
    refine .inr ⟨List.cons_ne_nil _ _, ?_⟩
    intro member
    rcases List.mem_cons.mp member with isU | member
    · exact absurd isU (by decide)
    · exact not_quote_of_isHex (hex _ member) rfl
  | pair _ _ hex =>
    refine .inr ⟨List.cons_ne_nil _ _, ?_⟩
    intro member
    rw [List.forall_mem_append] at hex
    rcases List.mem_append.mp member with member | member
    · rcases List.mem_cons.mp member with isU | member
      · exact absurd isU (by decide)
      · exact not_quote_of_isHex (hex.1 _ member) rfl
    · rcases List.mem_cons.mp member with isSlash | member
      · exact absurd isSlash (by decide)
      · rcases List.mem_cons.mp member with isU | member
        · exact absurd isU (by decide)
        · exact not_quote_of_isHex (hex.2 _ member) rfl

theorem readsString_plain_iff (isPlain : ∀ char ∈ content, Plain char) :
    ReadsString (content ++ '\x22' :: tail) value rest ↔ value = content ∧ rest = tail := by
  induction content generalizing value with
  | nil =>
    constructor
    · intro reads
      cases reads with
      | close => exact ⟨rfl, rfl⟩
      | plain notPlain => exact absurd rfl notPlain.1
    · rintro ⟨rfl, rfl⟩
      exact .close
  | cons char content induction =>
    have first := isPlain char List.mem_cons_self
    have later := fun other member => isPlain other (List.mem_cons_of_mem char member)
    constructor
    · intro reads
      cases reads with
      | close => exact absurd rfl first.1
      | plain _ reads =>
        rcases (induction later).mp reads with ⟨rfl, rfl⟩
        exact ⟨rfl, rfl⟩
      | escape => exact absurd rfl first.2.1
    · rintro ⟨rfl, rfl⟩
      exact .plain first ((induction later).mpr ⟨rfl, rfl⟩)

/-- How a string ends whose characters were written between quotes without escapes: before its
end, or there, or behind the closing quote if this is taken for an escaped one. -/
theorem ReadsString.ends (reads : ReadsString text value rest)
    (written : text = content ++ '\x22' :: ',' :: '\x22' :: tail) :
    value.length < content.length ∨
      ((∀ char ∈ content, Plain char) ∧ rest = ',' :: '\x22' :: tail) ∨
        ∃ before shorter, content = before ++ ['\\'] ∧ value = shorter ++ [','] := by
  induction reads generalizing content with
  | close =>
    cases content with
    | nil => exact .inr (.inl ⟨by simp, (List.cons_eq_cons.mp written).2⟩)
    | cons => exact .inl (Nat.zero_lt_succ _)
  | @plain char text value rest isPlain later induction =>
    cases content with
    | nil => exact absurd (List.cons_eq_cons.mp written).1 isPlain.1
    | cons first content =>
      rcases List.cons_eq_cons.mp written with ⟨rfl, isText⟩
      rcases induction isText with shorter | ⟨allPlain, isRest⟩ | ⟨before, shorter, rfl, rfl⟩
      · exact .inl (Nat.succ_lt_succ shorter)
      · exact .inr (.inl ⟨List.forall_mem_cons.mpr ⟨isPlain, allPlain⟩, isRest⟩)
      · exact .inr (.inr ⟨char :: before, char :: shorter, rfl, rfl⟩)
  | @escape escaped char text after value rest escape splits later induction =>
    cases content with
    | nil => exact absurd (List.cons_eq_cons.mp written).1 (by decide)
    | cons first content =>
      rcases List.cons_eq_cons.mp written with ⟨rfl, isText⟩
      have isText : escaped ++ after = content ++ '\x22' :: ',' :: '\x22' :: tail :=
        splits.symm.trans isText
      have further : ∀ {head more}, head ≠ [] → content = head ++ more →
          after = more ++ '\x22' :: ',' :: '\x22' :: tail →
          (char :: value).length < ('\\' :: content).length ∨
            ((∀ char ∈ '\\' :: content, Plain char) ∧ rest = ',' :: '\x22' :: tail) ∨
            ∃ before shorter, '\\' :: content = before ++ ['\\'] ∧
              char :: value = shorter ++ [','] := by
        rintro head more some rfl isAfter
        have longer := List.length_pos_iff.mpr some
        rcases induction isAfter with shorter | ⟨allPlain, _⟩ | ⟨before, shorter, rfl, rfl⟩
        · left
          simp only [List.length_cons, List.length_append]
          omega
        · left
          rw [isAfter] at later
          rw [((readsString_plain_iff allPlain).mp later).1]
          simp only [List.length_cons, List.length_append]
          omega
        · exact .inr (.inr ⟨'\\' :: head ++ before, char :: shorter, by simp, rfl⟩)
      rcases escape.quote_or with rfl | ⟨some, noQuote⟩
      · cases content with
        | nil =>
          have isAfter : after = [','] ++ '\x22' :: tail := (List.cons_eq_cons.mp isText).2
          have comma : ∀ char ∈ [','], Plain char := List.forall_mem_singleton.mpr (by decide)
          rw [isAfter] at later
          have isValue := ((readsString_plain_iff comma).mp later).1
          exact .inr (.inr ⟨[], [char], rfl, congrArg (char :: ·) isValue⟩)
        | cons second content =>
          rcases List.cons_eq_cons.mp isText with ⟨rfl, isAfter⟩
          exact further (List.cons_ne_nil _ []) rfl isAfter
      · rcases List.append_eq_append_iff.mp isText with
          ⟨more, isContent, isAfter⟩ | ⟨more, isEscaped, isRest⟩
        · exact further some isContent isAfter
        · cases more with
          | nil =>
            rw [List.append_nil] at isEscaped
            exact further some (isEscaped.symm.trans (List.append_nil _).symm) isRest.symm
          | cons first more =>
            rw [isEscaped, (List.cons_eq_cons.mp isRest).1] at noQuote
            exact absurd (List.mem_append_right _ List.mem_cons_self) noQuote

theorem plain_of_readsString
    (reads : ReadsString (content ++ '\x22' :: ',' :: '\x22' :: tail) content rest) :
    (∀ char ∈ content, Plain char) ∧ rest = ',' :: '\x22' :: tail := by
  rcases reads.ends rfl with shorter | plain | ⟨before, shorter, isContent, isValue⟩
  · exact absurd shorter (Nat.lt_irrefl _)
  · exact plain
  · rw [isContent] at isValue
    exact absurd (List.append_inj' isValue rfl).2 (by decide)

/-! ## The writer -/

inductive JsonField
  | text (content : String)
  | number (lexeme : List Char) (isNumber : IsNumber lexeme)

namespace JsonField

def value : JsonField → Json
  | .text content => .text content.toList
  | .number lexeme _ => .number lexeme

def Plain : JsonField → Prop
  | .text content => ∀ char ∈ content.toList, Foundation.Plain char
  | .number _ _ => True

def written : JsonField → List Char
  | .text content => '\x22' :: content.toList ++ ['\x22']
  | .number lexeme _ => lexeme

end JsonField

def namedText (name : String) (text : List Char) : List Char :=
  '\x22' :: (name.toList ++ '\x22' :: ':' :: text)

def writeFields (fields : List (String × JsonField)) (last : List Char) : List Char :=
  fields.foldr (fun field text => namedText field.1 (field.2.written ++ ',' :: text)) last

def PlainName (name : String) : Prop := ∀ char ∈ name.toList, Plain char

instance decidablePlainName (name : String) : Decidable (PlainName name) :=
  List.decidableBAll Plain name.toList

theorem readsMember_namedText_iff (plain : PlainName name) :
    ReadsMember (namedText name text) name.toList json rest ↔ ReadsValue text json rest := by
  constructor
  · rintro ⟨quote, key, colon, value⟩
    rw [← ((skips_cons_iff (by decide)).mp quote).2] at key
    rw [((readsString_plain_iff plain).mp key).2] at colon
    rw [((skips_cons_iff (by decide)).mp colon).2]
    exact value
  · intro value
    exact .named ⟨[], by simp, rfl⟩ ((readsString_plain_iff plain).mpr ⟨rfl, rfl⟩)
      ⟨[], by simp, rfl⟩ value

theorem IsNumber.eq_cons (isNumber : IsNumber lexeme) :
    ∃ char rest, lexeme = char :: rest ∧ ¬ IsBlank char := by
  rcases isNumber with ⟨sign, whole, fraction, exponent, rfl, rfl | rfl, ⟨some, digits⟩, _⟩
  · rcases List.exists_cons_of_ne_nil some with ⟨char, rest, rfl⟩
    refine ⟨char, _, rfl, ?_⟩
    have isDigit := digits char List.mem_cons_self
    rintro (rfl | rfl | rfl | rfl) <;> exact absurd isDigit (by decide)
  · exact ⟨'-', _, rfl, by decide⟩

theorem readsValue_number_iff (isNumber : IsNumber lexeme) :
    ReadsValue (lexeme ++ tail) (.number lexeme) rest ↔ rest = tail := by
  constructor
  · intro reads
    cases reads with
    | number skips =>
      rcases isNumber.eq_cons with ⟨char, lexeme, rfl, notBlank⟩
      exact (List.append_cancel_left ((skips_cons_iff notBlank).mp skips).2).symm
  · rintro rfl
    exact .number ⟨[], by simp, rfl⟩ isNumber

theorem readsValue_written_iff (field : JsonField) :
    ReadsValue (field.written ++ ',' :: '\x22' :: tail) field.value rest ↔
      field.Plain ∧ rest = ',' :: '\x22' :: tail := by
  cases field with
  | number lexeme isNumber =>
    exact (readsValue_number_iff isNumber).trans (iff_of_eq (true_and _)).symm
  | text content =>
    rw [JsonField.written, List.append_assoc]
    constructor
    · intro reads
      cases reads with
      | text quote string =>
        rw [← ((skips_cons_iff (by decide)).mp quote).2] at string
        exact plain_of_readsString string
    · rintro ⟨plain, rfl⟩
      exact .text ⟨[], by simp, rfl⟩ ((readsString_plain_iff plain).mpr ⟨rfl, rfl⟩)

theorem readsValue_object_iff :
    ReadsValue ('\x7b' :: inside) (.object rows) rest ↔ ReadsMembers inside rows rest := by
  constructor
  · intro reads
    cases reads with
    | object brace reads =>
      rw [((skips_cons_iff (by decide)).mp brace).2]
      exact reads
  · exact fun reads => .object ⟨[], by simp, rfl⟩ reads

theorem readsMembers_last_iff (plain : PlainName name) :
    ReadsMembers (namedText name text) [(name.toList, json)] rest ↔
      ∃ after, ReadsValue text json after ∧ Skips after ('\x7d' :: rest) := by
  constructor
  · intro reads
    cases reads with
    | last member brace => exact ⟨_, (readsMember_namedText_iff plain).mp member, brace⟩
    | more _ _ reads => cases reads
  · rintro ⟨after, value, brace⟩
    exact .last ((readsMember_namedText_iff plain).mpr value) brace

theorem ReadsMembers.cons (reads : ReadsMembers text ((key, json) :: rows) rest)
    (some : rows ≠ []) : ∃ after later, ReadsMember text key json after ∧
      Skips after (',' :: later) ∧ ReadsMembers later rows rest := by
  cases reads with
  | last => exact absurd rfl some
  | more member comma reads => exact ⟨_, _, member, comma, reads⟩

theorem writeFields_append (fields : List (String × JsonField)) (last tail : List Char) :
    writeFields fields last ++ tail = writeFields fields (last ++ tail) := by
  induction fields with
  | nil => rfl
  | cons field fields induction =>
    simpa [writeFields, namedText, List.append_assoc] using induction

theorem writeFields_eq_cons (fields : List (String × JsonField)) (tail : List Char) :
    ∃ rest, writeFields fields ('\x22' :: tail) = '\x22' :: rest := by
  cases fields with
  | nil => exact ⟨tail, rfl⟩
  | cons field fields => exact ⟨_, rfl⟩

theorem readsMembers_writeFields_iff (names : ∀ field ∈ fields, PlainName field.1)
    (some : last ≠ []) :
    ReadsMembers (writeFields fields ('\x22' :: tail))
        (fields.map (fun field => (field.1.toList, field.2.value)) ++ last) rest ↔
      (∀ field ∈ fields, field.2.Plain) ∧ ReadsMembers ('\x22' :: tail) last rest := by
  induction fields with
  | nil => simp [writeFields]
  | cons field fields induction =>
    rcases List.forall_mem_cons.mp names with ⟨name, names⟩
    rcases writeFields_eq_cons fields tail with ⟨later, isLater⟩
    rw [List.forall_mem_cons, and_assoc, ← induction names, isLater]
    change ReadsMembers (namedText field.1 (field.2.written ++
      ',' :: writeFields fields ('\x22' :: tail))) _ rest ↔ _
    rw [isLater]
    constructor
    · intro reads
      rcases reads.cons (List.append_ne_nil_of_right_ne_nil _ some) with
        ⟨after, next, member, comma, reads⟩
      rcases (readsValue_written_iff field.2).mp
        ((readsMember_namedText_iff name).mp member) with ⟨plain, rfl⟩
      rw [((skips_cons_iff (by decide)).mp comma).2]
      exact ⟨plain, reads⟩
    · rintro ⟨plain, reads⟩
      exact .more ((readsMember_namedText_iff name).mpr
        ((readsValue_written_iff field.2).mpr ⟨plain, rfl⟩)) ⟨[], by simp, rfl⟩ reads

end QAExchange.Foundation
