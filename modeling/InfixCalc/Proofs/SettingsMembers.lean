/-
# The members that settings are read from

What is read from the text of an object is told by the values under the two keys alone: in what
order the members stand, what other keys there are and what stands under these makes no difference
(`Settings.ofJsonText_object`).  A key counts as the text that it denotes, so it may be written with
escapes.  The values under other keys need not make sense: they may have numbers beyond any range
and strings that denote nothing.
-/

import InfixCalc.Proofs.SettingsText

namespace InfixCalc

namespace Json

/-- The entry is written for the member: its key denotes the text that is the key of the member. -/
structure IsEntryOf (member : String × Json) (entry : List StringUnit × Json) : Prop where
  key : Denotes entry.1 member.1.toList
  value : entry.2 = member.2

/-- The text is one of the texts of an object with these members. -/
def IsObjectText (members : List (String × Json)) (text : List Char) : Prop :=
  ∃ entries : Members, List.Forall₂ IsEntryOf members entries ∧ (object entries).IsText text

/-- The value is this limit: `null` is none, and a number without sign, fraction and exponent is
the integer that its digits are worth. -/
inductive IsLimit : Json → Option UInt64 → Prop
  | null : IsLimit (scalar .null) none
  | integer {digits : List Char} {limit : UInt64} (h : Decimal.value digits = limit.toNat) :
    IsLimit (scalar (.number ⟨false, digits, none, none⟩)) (some limit)

/-- The value is this flag. -/
def IsFlag (json : Json) (flag : Bool) : Prop := json = scalar (.bool flag)

/-- What is read of digits is the limit that they are worth. -/
theorem limitOfDigits_eq_some_iff {digits : List Char} {limit : Option UInt64} :
    ((Decimal.valueWithin? Decimal.uint64Max digits).map fun n => some (UInt64.ofNat n)) =
        some limit ↔
      ∃ n : UInt64, limit = some n ∧ Decimal.value digits = n.toNat := by
  rw [Decimal.valueWithin?_eq]
  constructor
  · intro h
    split at h
    · rename_i hle
      obtain rfl := Option.some.inj h
      exact ⟨_, rfl, (UInt64.toNat_ofNat_of_lt' (Nat.lt_succ_of_le hle)).symm⟩
    · cases h
  · rintro ⟨n, rfl, hvalue⟩
    have hle : Decimal.value digits ≤ Decimal.uint64Max := hvalue ▸ Nat.le_of_lt_succ n.toNat_lt
    rw [if_pos hle, hvalue, Option.map_some, UInt64.ofNat_toNat]

/-- A number is an integer without a sign if it has whole digits and nothing else. -/
theorem Number.integer?_eq_some_false_iff {number : Number} {digits : List Char} :
    number.integer? = some (false, digits) ↔ number = ⟨false, digits, none, none⟩ := by
  obtain ⟨negative, whole, fraction, exponent⟩ := number
  cases negative <;> cases fraction <;> cases exponent <;> simp [integer?]

/-- A limit is read from the values that mean one. -/
theorem limit?_eq_some_iff {json : Json} {limit : Option UInt64} :
    json.limit? = some limit ↔ json.IsLimit limit := by
  constructor
  · intro h
    unfold limit? at h
    split at h
    · obtain rfl := Option.some.inj h
      exact .null
    · split at h
      · rename_i hinteger
        obtain rfl := Number.integer?_eq_some_false_iff.1 hinteger
        obtain ⟨n, rfl, hvalue⟩ := limitOfDigits_eq_some_iff.1 h
        exact .integer hvalue
      · cases h
    · cases h
  · intro h
    cases h with
    | null => rfl
    | integer hvalue => exact limitOfDigits_eq_some_iff.2 ⟨_, rfl, hvalue⟩

/-- A flag is read from the values that mean one. -/
theorem bool?_eq_some_iff {json : Json} {flag : Bool} :
    json.bool? = some flag ↔ json.IsFlag flag := by
  constructor
  · intro h
    unfold bool? at h
    split at h
    · obtain rfl := Option.some.inj h
      rfl
    · cases h
  · rintro rfl
    rfl

/-- The keys of an object are read as the texts that they denote. -/
theorem textKeysAfter?_eq {members : List (String × Json)} {entries : Members}
    (h : List.Forall₂ IsEntryOf members entries) (before : List (String × Json)) :
    textKeysAfter? before entries = some (before.reverse ++ members) := by
  induction h generalizing before with
  | nil => rw [textKeysAfter?, List.append_nil]
  | @cons member entry _ _ hentry _ ih =>
    obtain ⟨key, value⟩ := member
    obtain ⟨units, value'⟩ := entry
    obtain ⟨hkey, rfl⟩ := hentry
    rw [textKeysAfter?, hkey.decode?_eq]
    simp only [ih, List.reverse_cons, List.append_assoc]
    rfl

end Json

namespace Settings

/-- What the values given for a setting say: none says the default, and one what it means. -/
inductive Given {α : Type} (default : α) (Means : Json → α → Prop) : List Json → α → Prop
  | absent : Given default Means [] default
  | once {json : Json} {value : α} (h : Means json value) : Given default Means [json] value

section Values

variable {α : Type} {default : α} {read? : Json → Option α} {Means : Json → α → Prop}
  {values : List Json}

/-- **A setting is read** as its only value, or as the default where there is none. -/
theorem readSetting?_eq_some_iff (hread : ∀ json value, read? json = some value ↔ Means json value)
    {value : α} :
    readSetting? default read? values = some value ↔ Given default Means values value := by
  constructor
  · intro h
    unfold readSetting? at h
    split at h
    · obtain rfl := Option.some.inj h
      exact .absent
    · exact .once ((hread _ _).1 h)
    · cases h
  · intro h
    cases h with
    | absent => rfl
    | once h => exact (hread _ _).2 h

/-- A setting is not read if it is given twice, or its value means nothing. -/
theorem readSetting?_eq_none_iff (default : α)
    (hread : ∀ json value, read? json = some value ↔ Means json value) :
    readSetting? default read? values = none ↔
      1 < values.length ∨ ∃ json ∈ values, ∀ value, ¬ Means json value := by
  match values with
  | [] => simp [readSetting?]
  | [json] => simp [readSetting?, Option.eq_none_iff_forall_ne_some, hread]
  | _ :: _ :: _ => simp [readSetting?]

end Values

section Object

variable {limits flags : List Json}

/-- Settings are read if both of them are. -/
theorem ofValues?_eq_some_iff {settings : Settings} :
    ofValues? limits flags = some settings ↔
      Given none Json.IsLimit limits settings.maxLength ∧
        Given false Json.IsFlag flags settings.tracePostfix := by
  rw [← readSetting?_eq_some_iff fun _ _ => Json.limit?_eq_some_iff,
    ← readSetting?_eq_some_iff fun _ _ => Json.bool?_eq_some_iff, ofValues?]
  obtain ⟨maxLength, tracePostfix⟩ := settings
  cases readSetting? none Json.limit? limits <;> cases readSetting? false Json.bool? flags <;> simp

/-- Settings are not read if one of them is not. -/
theorem ofValues?_eq_none_iff :
    ofValues? limits flags = none ↔
      (1 < limits.length ∨ ∃ json ∈ limits, ∀ limit, ¬ json.IsLimit limit) ∨
        1 < flags.length ∨ ∃ json ∈ flags, ∀ flag, ¬ json.IsFlag flag := by
  rw [← readSetting?_eq_none_iff none fun _ _ => Json.limit?_eq_some_iff,
    ← readSetting?_eq_none_iff false fun _ _ => Json.bool?_eq_some_iff, ofValues?]
  cases readSetting? none Json.limit? limits <;> cases readSetting? false Json.bool? flags <;> simp

end Object

section Outcomes

variable {text : String} {json : Json}

/-- Reading fails if the value is none of settings. -/
theorem ofJsonText_eq_serialization_iff (htext : Json.ofText? text = some json) :
    (∃ reason, ofJsonText text = .error (.serialization reason)) ↔ ofJson? json = none := by
  cases hjson : ofJson? json with
  | none =>
    have hread : ofJsonText text = .error (.serialization "不是配置") := by
      simp only [ofJsonText, htext, hjson]
    exact ⟨fun _ => rfl, fun _ => ⟨_, hread⟩⟩
  | some settings =>
    rw [ofJsonText_of_ofJson? htext hjson, validate]
    split <;> simp [Except.map]

/-- What is read is given back unless its limit is zero. -/
theorem ofJsonText_eq_ok_iff (htext : Json.ofText? text = some json) {settings : Settings} :
    ofJsonText text = .ok settings ↔
      ofJson? json = some settings ∧ settings.maxLength ≠ some 0 := by
  cases hjson : ofJson? json with
  | none => simp only [ofJsonText, htext, hjson, reduceCtorEq, false_and]
  | some read =>
    rw [ofJsonText_of_ofJson? htext hjson, validate, Option.some.injEq]
    split
    · rename_i hzero
      constructor
      · intro h
        cases h
      · rintro ⟨rfl, hne⟩
        exact absurd hzero hne
    · rename_i hne
      constructor
      · intro h
        obtain rfl := Except.ok.inj h
        exact ⟨rfl, hne⟩
      · rintro ⟨rfl, -⟩
        rfl

/-- Settings with a limit of zero are refused. -/
theorem ofJsonText_eq_validation_iff (htext : Json.ofText? text = some json) :
    (∃ reason, ofJsonText text = .error (.validation reason)) ↔
      ∃ settings, ofJson? json = some settings ∧ settings.maxLength = some 0 := by
  cases hjson : ofJson? json with
  | none => simp only [ofJsonText, htext, hjson, Except.error.injEq, reduceCtorEq, exists_false,
      false_and]
  | some read =>
    rw [ofJsonText_of_ofJson? htext hjson, validate]
    split
    · rename_i hzero
      exact ⟨fun _ => ⟨read, rfl, hzero⟩, fun _ => ⟨_, rfl⟩⟩
    · rename_i hne
      constructor
      · rintro ⟨reason, h⟩
        cases h
      · rintro ⟨settings, hread, hzero⟩
        obtain rfl := Option.some.inj hread
        exact absurd hzero hne

end Outcomes

/-- **What is read from the text of an object** is told by the values under the two keys.  Reading
fails if one of the keys is repeated, or if its value is no limit or no flag.  Otherwise the
settings are what the values say, and they are refused if and only if the limit is zero. -/
theorem ofJsonText_object {members : List (String × Json)} {text : String}
    (h : Json.IsObjectText members text.toList) :
    let limits := Json.valuesAt "max_input_len" members
    let flags := Json.valuesAt "trace_postfix" members
    ((∃ reason, ofJsonText text = .error (.serialization reason)) ↔
      (1 < limits.length ∨ ∃ json ∈ limits, ∀ limit, ¬ json.IsLimit limit) ∨
        1 < flags.length ∨ ∃ json ∈ flags, ∀ flag, ¬ json.IsFlag flag) ∧
    ((∃ reason, ofJsonText text = .error (.validation reason)) ↔
      Given none Json.IsLimit limits (some 0) ∧ ∃ flag, Given false Json.IsFlag flags flag) ∧
    ∀ settings : Settings, ofJsonText text = .ok settings ↔
      (Given none Json.IsLimit limits settings.maxLength ∧
        Given false Json.IsFlag flags settings.tracePostfix) ∧ settings.maxLength ≠ some 0 := by
  intro limits flags
  obtain ⟨entries, hmembers, hentries⟩ := h
  have htext : Json.ofText? text = some (.object entries) := hentries.ofText?_eq
  have hvalues : ofJson? (.object entries) = ofValues? limits flags := by
    rw [ofJson?, Json.textKeysAfter?_eq hmembers]
    rfl
  refine ⟨?_, ?_, fun settings => ?_⟩
  · rw [ofJsonText_eq_serialization_iff htext, hvalues, ofValues?_eq_none_iff]
  · rw [ofJsonText_eq_validation_iff htext, hvalues]
    -- settings that are read are refused for nothing but a limit of zero
    simp only [ofValues?_eq_some_iff]
    constructor
    · rintro ⟨settings, ⟨hlimit, hflag⟩, hzero⟩
      exact ⟨hzero ▸ hlimit, _, hflag⟩
    · rintro ⟨hlimit, flag, hflag⟩
      exact ⟨⟨some 0, flag⟩, ⟨hlimit, hflag⟩, rfl⟩
  · rw [ofJsonText_eq_ok_iff htext, hvalues, ofValues?_eq_some_iff]

/-- The key of the limit is written with an escape here, and the same key inside another value, with
a number beyond any range, is not taken for it. -/
theorem ofJsonText_escaped_key :
    ofJsonText "\x7b\"x\": \x7b\"max_input_len\": 1e999\x7d ,\n\"\\u006dax_input_len\" : 64\x7d" =
      .ok ⟨some 64, false⟩ := by
  have h : Json.IsObjectText
      [("x", .object [(Json.unitsOf "max_input_len",
          .scalar (.number ⟨false, ['1'], none, some ⟨'e', none, ['9', '9', '9']⟩⟩))]),
        ("max_input_len", .scalar (.number ⟨false, ['6', '4'], none, none⟩))]
      "\x7b\"x\": \x7b\"max_input_len\": 1e999\x7d ,\n\"\\u006dax_input_len\" : 64\x7d".toList := by
    have hkey := Json.Denotes.escape 'm' (Json.denotes_map_char "ax_input_len".toList)
    have h0 : Json.IsHexDigit 0 '0' := .inl rfl
    have h6 : Json.IsHexDigit 6 '6' := .inl rfl
    have hd : Json.IsHexDigit 13 'd' := .inl rfl
    have hescape : Json.StringUnit.SpelledAs (.code 0x6D) "\\u006d".toList := .hex h0 h0 h6 hd rfl
    have hplain : ∀ c ∈ "max_input_len".toList, Json.isPlain c := List.all_eq_true.1 (by decide)
    have hinnerKey := Json.Lexeme.SpelledAs.string (Json.forall₂_spelledAs_plain hplain)
    have houterKey := Json.Lexeme.SpelledAs.string (.cons hescape (Json.forall₂_spelledAs_plain
      fun c hc => hplain c (List.mem_cons_of_mem 'm' hc)))
    have hlarge :
        Json.Number.WellFormed ⟨false, ['1'], none, some ⟨'e', none, ['9', '9', '9']⟩⟩ := by
      refine ⟨.inr (by decide), by simp, ?_⟩
      rintro _ ⟨⟩
      exact ⟨.inl rfl, by simp, by decide⟩
    have hsmall : Json.Number.WellFormed ⟨false, ['6', '4'], none, none⟩ :=
      ⟨.inr (by decide), by simp, by simp⟩
    refine ⟨[([.char 'x'], _), (_, _)], .cons ⟨.char 'x' .nil, rfl⟩ (.cons ⟨hkey, rfl⟩ .nil), ?_⟩
    simp only [Json.IsText, Json.lexemes_object, Json.memberLexemes, Json.lexemes_scalar,
      List.map_cons, List.map_nil, List.intercalate_cons_cons, List.intercalate_singleton,
      List.cons_append, List.nil_append]
    refine ⟨_, .cons (.mark (by simp)) (.cons (.string (.cons (.plain rfl) .nil))
      (.cons (.mark (by simp)) (.cons (.mark (by simp)) (.cons hinnerKey (.cons (.mark (by simp))
      (.cons (.number hlarge) (.cons (.mark (by simp)) (.cons (.mark (by simp)) (.cons houterKey
      (.cons (.mark (by simp)) (.cons (.number hsmall) (.cons (.mark (by simp)) .nil)))))))))))),
      ?_⟩
    exact Json.spaced_of_isSpaced (by decide)
  have hlimit : Decimal.value ['6', '4'] = (64 : UInt64).toNat := rfl
  exact ((ofJsonText_object h).2.2 ⟨some 64, false⟩).2
    ⟨⟨.once (.integer hlimit), .absent⟩, by decide⟩

end Settings
end InfixCalc
