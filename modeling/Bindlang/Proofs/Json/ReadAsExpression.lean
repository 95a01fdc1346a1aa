import Bindlang.Json.Reader
import Bindlang.Proofs.Json.CanonicalForm
import Bindlang.Proofs.Printer.ValueRoundTrip

namespace Bindlang.JsonText

open Text NumberText FloatFormat

inductive IsInteger : List Char → Int → Prop
  | positive {whole : List Char} (isWhole : IsWhole whole) :
      IsInteger whole (Nat.ofDigitChars 10 whole 0)
  | negative {whole : List Char} (isWhole : IsWhole whole) :
      IsInteger ('-' :: whole) (-Nat.ofDigitChars 10 whole 0)

def Fits (n : Int) : Prop :=
  Int64.minValue.toInt ≤ n ∧ n ≤ Int64.maxValue.toInt

instance (n : Int) : Decidable (Fits n) :=
  inferInstanceAs (Decidable (_ ∧ _))

/-- An integer that fits 64 bits stands for itself, another number for the nearest float. -/
inductive IsNumeral : List Char → Json → Prop
  | integer {text : List Char} {n : Int} (isInteger : IsInteger text n)
      (notMinusZero : text ≠ ['-', '0']) (fits : Fits n) : IsNumeral text (.integer n)
  | float {text : List Char} {negative : Bool} {d : Decimal} {x : Float}
      (isNumber : IsNumber text negative d) (unfit : ∀ n, IsInteger text n → ¬Fits n)
      (reads : Decimal.readFloat? text = some x) (finite : x.isFinite = true) :
      IsNumeral text (.float x)

def IsVerbatim (s : String) : Prop :=
  ∀ c ∈ s.toList, c ≠ '"' ∧ c ≠ '\\' ∧ 0x20 ≤ c.toNat

def IsBlank (text : List Char) : Prop :=
  ∀ c ∈ text, Json.isBlank c = true

structure Member where
  before : List Char
  key : String
  behind : List Char
  text : List Char
  value : Json

namespace Member

def chars (m : Member) : List Char :=
  m.before ++ (quoted m.key ++ (m.behind ++ ':' :: m.text))

def field (m : Member) : String × Json :=
  (m.key, m.value)

structure HasKey (m : Member) : Prop where
  before : IsBlank m.before
  key : IsVerbatim m.key
  behind : IsBlank m.behind

end Member

/-- The JSON texts and the trees that they denote. -/
inductive IsJson : List Char → Json → Prop
  | null : IsJson "null".toList .null
  | boolean (b : Bool) : IsJson (booleanText b) (.boolean b)
  | number {text : List Char} {j : Json} (isNumeral : IsNumeral text j) : IsJson text j
  | string {s : String} (isVerbatim : IsVerbatim s) : IsJson (quoted s) (.string s)
  | emptyArray {blank : List Char} (isBlank : IsBlank blank) :
      IsJson ('[' :: (blank ++ [']'])) (.array [])
  | array {items : List (List Char × Json)}
      (each : ∀ item ∈ items, IsJson item.1 item.2) :
      IsJson ('[' :: ([','].intercalate (items.map Prod.fst) ++ [']'])) (.array (items.map Prod.snd))
  | emptyObject {blank : List Char} (isBlank : IsBlank blank) :
      IsJson ('{' :: (blank ++ ['}'])) (.object [])
  | object {members : List Member} (keys : ∀ m ∈ members, m.HasKey)
      (values : ∀ m ∈ members, IsJson m.text m.value) :
      IsJson ('{' :: ([','].intercalate (members.map Member.chars) ++ ['}']))
        (.object (members.map Member.field))
  | blankBefore {blank text : List Char} {j : Json} (isBlank : IsBlank blank)
      (isJson : IsJson text j) : IsJson (blank ++ text) j
  | blankBehind {blank text : List Char} {j : Json} (isBlank : IsBlank blank)
      (isJson : IsJson text j) : IsJson (text ++ blank) j

variable {text : List Char} {n : Int} {j : Json}

theorem exists_isNumber (isInteger : IsInteger text n) : ∃ negative d, IsNumber text negative d := by
  cases isInteger with
  | positive isWhole => exact ⟨_, _, .positive (isMagnitude_of_isWhole isWhole)⟩
  | negative isWhole => exact ⟨_, _, .negative (isMagnitude_of_isWhole isWhole)⟩

theorem readInt64_of_isInteger (isInteger : IsInteger text n) : readInt64? text = toInt64? n := by
  cases isInteger with
  | positive isWhole => exact readInt64_of_digits isWhole.1
  | negative isWhole => exact readInt64_minus isWhole.1

theorem isFloatText_of_isInteger (isInteger : IsInteger text n) : isFloatText text = false := by
  cases isInteger with
  | positive isWhole => exact isFloatText_of_digits isWhole.1
  | negative isWhole =>
    have digits := isFloatText_of_digits isWhole.1
    exact digits

theorem exists_isInteger {negative : Bool} {d : Decimal} (isNumber : IsNumber text negative d)
    (noFloat : isFloatText text = false) : ∃ n, IsInteger text n := by
  have ofMagnitude : ∀ {magnitude : List Char}, IsMagnitude magnitude d →
      isFloatText magnitude = false → IsWhole magnitude := by
    intro magnitude isMagnitude noFloat
    cases isMagnitude with
    | mk isWhole isFraction isExponent =>
      -- The point of a fraction and the letter of an exponent would stand in the text.
      cases isFraction with
      | some digits => simp [isFloatText] at noFloat
      | none =>
        cases isExponent with
        | none => simpa using isWhole
        | some letter isSign digits =>
          rcases letter with rfl | rfl <;> simp [isFloatText] at noFloat
  cases isNumber with
  | positive magnitude => exact ⟨_, .positive (ofMagnitude magnitude noFloat)⟩
  | negative magnitude => exact ⟨_, .negative (ofMagnitude magnitude noFloat)⟩

theorem toInt64_of_fits (fits : Fits n) : toInt64? n = some (.ofInt n) :=
  if_pos fits

theorem ofInteger_of_fits (fits : Fits n) : Tree.ofInteger n = .integer (.ofInt n) := by
  rw [Tree.ofInteger, toInt64_of_fits fits]

theorem ofNumber_of_isInteger (isInteger : IsInteger text n) (fits : Fits n) :
    Literal.ofNumber? (.ofList text) = some (.integer (.ofInt n)) := by
  have noFloat := isFloatText_of_isInteger isInteger
  rw [isFloatText] at noFloat
  have reads := (readInt64_of_isInteger isInteger).trans (toInt64_of_fits fits)
  simp [Literal.ofNumber?, noFloat, reads]

theorem ofNumber_of_unfit {negative : Bool} {d : Decimal} {x : Float}
    (isNumber : IsNumber text negative d) (unfit : ∀ n, IsInteger text n → ¬Fits n)
    (reads : Decimal.readFloat? text = some x) :
    Literal.ofNumber? (.ofList text) = some (.float x) := by
  cases isFloat : isFloatText text with
  | true =>
    rw [isFloatText] at isFloat
    simp [Literal.ofNumber?, isFloat, reads]
  | false =>
    obtain ⟨n, isInteger⟩ := exists_isInteger isNumber isFloat
    have unread : readInt64? text = none := by
      rw [readInt64_of_isInteger isInteger]
      exact if_neg (unfit n isInteger)
    rw [isFloatText] at isFloat
    simp [Literal.ofNumber?, isFloat, unread, reads]

theorem isQuotable_of_isVerbatim {s : String} (isVerbatim : IsVerbatim s) : IsQuotable s :=
  fun quote => (isVerbatim '"' quote).1 rfl

theorem blank_of_isBlank {blank : List Char} (isBlank : IsBlank blank) : Token.Blank blank := by
  intro c member
  have isJsonBlank := isBlank c member
  simp only [Json.isBlank, Bool.or_eq_true, beq_iff_eq] at isJsonBlank
  rcases isJsonBlank with ((rfl | rfl) | rfl) | rfl <;> decide +kernel

theorem IsJson.printable (isJson : IsJson text j) : (Tree.ofJson j).Printable := by
  induction isJson with
  | null => exact .null
  | boolean b => exact .boolean b
  | number isNumeral =>
    cases isNumeral with
    | integer _ _ fits =>
      rw [Tree.ofJson, ofInteger_of_fits fits]
      exact .integer _
    | float _ _ _ finite => exact .float finite
  | string isVerbatim => exact .string (isQuotable_of_isVerbatim isVerbatim)
  | emptyArray => exact .array (List.forall_mem_nil _)
  | array _ ih =>
    rw [Tree.ofJson, Tree.itemsOfJson_eq_map]
    exact .array (List.forall_mem_map.2 (List.forall_mem_map.2 ih))
  | emptyObject => exact .object (List.forall_mem_nil _) (List.forall_mem_nil _)
  | object keys _ ih =>
    rw [Tree.ofJson, Tree.fieldsOfJson_eq_map]
    refine .object (List.forall_mem_map.2 (List.forall_mem_map.2 ?_))
      (List.forall_mem_map.2 (List.forall_mem_map.2 ih))
    exact fun m member => isQuotable_of_isVerbatim (keys m member).key
  | blankBefore _ _ ih | blankBehind _ _ ih => exact ih

open Lexeme Token Grammar

theorem lexes_numeral (isNumeral : IsNumeral text j) :
    Lexes false text false BehindValue (IsValue · (Tree.ofJson j).expression) := by
  cases isNumeral with
  | integer isInteger _ fits =>
    obtain ⟨_, _, isNumber⟩ := exists_isNumber isInteger
    rw [Tree.ofJson, ofInteger_of_fits fits]
    exact lexes_number isNumber (ofNumber_of_isInteger isInteger fits)
  | float isNumber unfit reads _ =>
    exact lexes_number isNumber (ofNumber_of_unfit isNumber unfit reads)

theorem lexes_member {m : Member} {e : Expression} (hasKey : m.HasKey)
    (value : Lexes false m.text false BehindValue (IsValue · e)) :
    Lexes false m.chars false BehindValue (IsEntry IsValue · (m.key, e)) := by
  have spelled : Spelled false .string m.key.toList :=
    .string (isQuotable_of_isVerbatim hasKey.key)
  have label := lexes_label (blank_of_isBlank hasKey.behind) spelled (by decide) value
  refine (label.blank (blank_of_isBlank hasKey.before)).imp (fun _ behind => behind) ?_
  rintro _ ⟨k, c, us, rfl, isString, same, isColon, isValue⟩
  have entry := IsEntry.mk (.inl isString) isColon isValue
  rwa [same, String.ofList_toList] at entry

theorem IsJson.lexes (isJson : IsJson text j) :
    Lexes false text false BehindValue (IsValue · (Tree.ofJson j).expression) := by
  induction isJson with
  | null => exact lexes_literal (l := .null) trivial
  | boolean b => exact lexes_literal (l := .boolean b) trivial
  | number isNumeral => exact lexes_numeral isNumeral
  | @string s isVerbatim => exact lexes_literal (l := .string s) (isQuotable_of_isVerbatim isVerbatim)
  | emptyArray isBlank => exact lexes_array (lexes_emptyList (blank_of_isBlank isBlank))
  | array _ ih =>
    rw [Tree.ofJson, Tree.itemsOfJson_eq_map, Tree.expression, Tree.itemExpressions_eq_map,
      List.map_map, List.map_map]
    exact lexes_array ((lexes_list blank_nil ih).imp (fun _ behind => behind)
      fun _ list => list.map)
  | emptyObject isBlank => exact lexes_object (lexes_emptyList (blank_of_isBlank isBlank))
  | object keys _ ih =>
    rw [Tree.ofJson, Tree.fieldsOfJson_eq_map, Tree.expression, Tree.fieldExpressions_eq_map,
      List.map_map, List.map_map]
    have members := lexes_list blank_nil fun m member => lexes_member (keys m member) (ih m member)
    exact lexes_object (members.imp (fun _ behind => behind) fun _ list => list.map)
  | blankBefore isBlank _ ih => exact ih.blank (blank_of_isBlank isBlank)
  | blankBehind isBlank _ ih => exact ih.append_blank (blank_of_isBlank isBlank)

/-- A JSON text is read as a value, equal to the one that is stored for its tree. -/
theorem read_of_json (options : Options) {text : String} (isJson : IsJson text.toList j)
    (room : (Tree.ofJson j).depth ≤ options.rules.maxDepth) (scope : Scope) :
    ∃ set accessor, options.bind ("a: " ++ text) scope = .ok set ∧
      set.accessors.entries = [("a", accessor)] ∧
      ∀ s, ∃ v now, accessor.read? s = (some v, now) ∧
        (Store.buildJson j now).2.equal v (Store.buildJson j now).1 = true := by
  have printable := isJson.printable
  obtain ⟨set, bound, entries⟩ := options.bind_of_lexes isIdentifier_a isJson.lexes
    (printable.depth_expression_le room) scope
  rw [← label_append, String.ofList_toList] at bound
  refine ⟨set, _, bound, entries, fun s => ?_⟩
  refine ⟨_, _, Expression.evaluatesTo_of_printable scope printable s, ?_⟩
  obtain ⟨read, _⟩ := Store.builds (.ofJson j) s
  -- The two are compared in the later store, where what was read has the tree it had.
  obtain ⟨stored, grows⟩ := Store.builds (.ofJson j.canonical) (Store.build (.ofJson j) s).2
  exact ((read.extend grows).equal_eq stored).trans (Tree.equal_canonical printable)

def spacedText : String :=
  "\t\x7b\"k\" : [1, -2.5e+1 ,\x7b\x7d],\"k\":\n[ ], \"\": 9223372036854775808\x7d"

def spacedJson : Json :=
  .object [("k", .array [.integer 1, .float (-(Decimal.mk 25 0).toFloat), .object []]),
    ("k", .array []), ("", .float (Decimal.mk 9223372036854775808 0).toFloat)]

theorem unfit_of_unread (unread : readInt64? text = none) : ∀ n, IsInteger text n → ¬Fits n := by
  intro n isInteger fits
  rw [readInt64_of_isInteger isInteger, toInt64_of_fits fits] at unread
  cases unread

theorem isJson_spacedText : IsJson spacedText.toList spacedJson := by
  have nothing : IsBlank [] := List.forall_mem_nil _
  have blank : ∀ c, Json.isBlank c = true → IsBlank [c] := by
    intro c isBlank d member
    rwa [List.mem_singleton.1 member]
  have space := blank ' ' rfl
  have one : IsJson ['1'] (.integer 1) :=
    .number (.integer (.positive (isWhole_toDigits 1)) (by decide) (by decide))
  have float : IsJson "-2.5e+1".toList (.float (-(Decimal.mk 25 0).toFloat)) := by
    have isNumber : IsNumber "-2.5e+1".toList true ⟨25, 0⟩ :=
      .negative (.mk (isWhole_toDigits 2) (.some (digits_toDigits 5))
        (.some (.inl rfl) .plus (digits_toDigits 1)))
    exact .number (.float isNumber (unfit_of_unread (by decide +kernel)) (readFloat_eq isNumber)
      (by decide +kernel))
  have large : IsJson "9223372036854775808".toList
      (.float (Decimal.mk 9223372036854775808 0).toFloat) := by
    have isNumber : IsNumber "9223372036854775808".toList false ⟨9223372036854775808, 0⟩ :=
      .positive (isMagnitude_toDigits 9223372036854775808)
    exact .number (.float isNumber (unfit_of_unread (by decide +kernel)) (readFloat_eq isNumber)
      (by decide +kernel))
  have items : ∀ item ∈ [(['1'], Json.integer 1),
      ([' '] ++ ("-2.5e+1".toList ++ [' ']), .float (-(Decimal.mk 25 0).toFloat)),
      ('{' :: ([] ++ ['}']), .object [])], IsJson item.1 item.2 := by
    simp only [List.forall_mem_cons, List.not_mem_nil, false_imp_iff, implies_true, and_true]
    exact ⟨one, .blankBefore space (.blankBehind space float), .emptyObject nothing⟩
  have key : IsVerbatim "k" := by
    intro c member
    rw [List.mem_singleton.1 member]
    decide
  have noKey : IsVerbatim "" := by
    intro c none
    cases none
  have first := IsJson.blankBefore space (.array items)
  have second := IsJson.blankBefore (blank '\n' rfl) (.emptyArray space)
  have third := IsJson.blankBefore space large
  have members : ∀ m ∈ [Member.mk [] "k" [' '] _ _, ⟨[], "k", [], _, _⟩, ⟨[' '], "", [], _, _⟩],
      m.HasKey ∧ IsJson m.text m.value :=
    List.forall_mem_cons.2 ⟨⟨⟨nothing, key, space⟩, first⟩,
      List.forall_mem_cons.2 ⟨⟨⟨nothing, key, nothing⟩, second⟩,
        List.forall_mem_singleton.2 ⟨⟨space, noKey, nothing⟩, third⟩⟩⟩
  have object := IsJson.object (fun m member => (members m member).1)
    fun m member => (members m member).2
  have whole := IsJson.blankBefore (blank '\t' rfl) object
  refine (congrArg₂ IsJson ?_ rfl).mp whole
  decide +kernel

theorem spacedText_is_read :
    IsJson spacedText.toList spacedJson ∧ (Tree.ofJson spacedJson).depth ≤ 3 ∧
      ∃ set accessor,
        Options.bind ⟨"bind", .reject, 3⟩ ("a: " ++ spacedText) ⟨.undefined, none⟩ = .ok set ∧
        set.accessors.entries = [("a", accessor)] ∧
        ∀ s, ∃ v now, accessor.read? s = (some v, now) ∧
          (Store.buildJson spacedJson now).2.equal v (Store.buildJson spacedJson now).1 = true := by
  have room : (Tree.ofJson spacedJson).depth ≤ 3 := by
    have one : Tree.ofInteger 1 = .integer 1 := rfl
    simp [spacedJson, Tree.ofJson, Tree.itemsOfJson, Tree.fieldsOfJson, one, Tree.depth,
      Tree.depthOfItems, Tree.depthOfFields]
  exact ⟨isJson_spacedText, room,
    read_of_json ⟨"bind", .reject, 3⟩ isJson_spacedText room ⟨.undefined, none⟩⟩

end Bindlang.JsonText
