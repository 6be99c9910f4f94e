/-
# Settings that are written and read

Settings are read back from their JSON text, for every limit and either flag
(`Settings.ofJson?_jsonMembers`).  Only reading asks whether they are valid: the text of settings
that are not is refused (`Settings.ofJsonText_prettyJson`).
-/

import InfixCalc.Proofs.JsonTexts
import InfixCalc.Settings.Json

namespace InfixCalc

namespace Json

/-- A limit is read back from its number. -/
theorem limit?_ofInt (limit : UInt64) :
    limit? (scalar (.number (Number.ofInt limit.toNat))) = some (some limit) := by
  have hnonneg : ¬ (limit.toNat : Int) < 0 := Int.not_lt.2 (Int.natCast_nonneg _)
  have hle : limit.toNat ≤ Decimal.uint64Max := Nat.le_of_lt_succ limit.toNat_lt
  simp only [limit?, Number.integer?_ofInt, decide_eq_false hnonneg, Int.natAbs_natCast,
    Decimal.valueWithin?_toDigits hle, Option.map_some, UInt64.ofNat_toNat]

end Json

namespace Settings

/-- What the limit of settings is written as. -/
theorem jsonMembers_eq (settings : Settings) :
    ∃ limit : Json.Scalar, settings.jsonMembers =
      [(Json.unitsOf maxLengthKey, .scalar limit),
        (Json.unitsOf tracePostfixKey, .scalar (.bool settings.tracePostfix))] ∧
      Json.limit? (.scalar limit) = some settings.maxLength ∧
      Json.Lexeme.ReadsBack (.scalar limit) := by
  obtain ⟨maxLength, tracePostfix⟩ := settings
  cases maxLength with
  | none => exact ⟨.null, rfl, rfl, Json.Lexeme.readsBack_null⟩
  | some limit => exact ⟨_, rfl, Json.limit?_ofInt limit, Json.Lexeme.readsBack_ofInt _⟩

/-- **Settings are read back from their JSON value.** -/
theorem ofJson?_jsonMembers (settings : Settings) :
    ofJson? (.object settings.jsonMembers) = some settings := by
  obtain ⟨limit, hmembers, hlimit, -⟩ := settings.jsonMembers_eq
  have hkeys : Json.textKeysAfter? [] settings.jsonMembers =
      some [(maxLengthKey, .scalar limit),
        (tracePostfixKey, .scalar (.bool settings.tracePostfix))] := by
    rw [hmembers]
    simp only [Json.textKeysAfter?, Json.decode?_unitsOf]
    rfl
  simp only [ofJson?, hkeys]
  have hlimits : Json.valuesAt maxLengthKey [(maxLengthKey, .scalar limit),
      (tracePostfixKey, .scalar (.bool settings.tracePostfix))] = [.scalar limit] := rfl
  have hflags : Json.valuesAt tracePostfixKey [(maxLengthKey, .scalar limit),
      (tracePostfixKey, .scalar (.bool settings.tracePostfix))] =
      [.scalar (.bool settings.tracePostfix)] := rfl
  rw [hlimits, hflags, ofValues?]
  simp only [readSetting?, hlimit, Json.bool?]

/-- The JSON value of settings can be written. -/
theorem written_jsonMembers (settings : Settings) : (Json.object settings.jsonMembers).Written := by
  obtain ⟨limit, hmembers, -, hlimit⟩ := settings.jsonMembers_eq
  have hmaxLength := Json.Lexeme.readsBack_unitsOf
    (List.all_eq_true.1 (by decide : maxLengthKey.toList.all Json.isPlain))
  have htracePostfix := Json.Lexeme.readsBack_unitsOf
    (List.all_eq_true.1 (by decide : tracePostfixKey.toList.all Json.isPlain))
  have hflag := Json.Lexeme.readsBack_bool settings.tracePostfix
  rw [hmembers]
  refine Json.written_object.2 (List.forall_mem_cons.2 ⟨⟨hmaxLength, ?_⟩,
    List.forall_mem_singleton.2 ⟨htracePostfix, ?_⟩⟩)
  · exact Json.written_scalar.2 hlimit
  · exact Json.written_scalar.2 hflag

/-- Settings are held to be valid when they are read. -/
theorem ofJsonText_of_ofJson? {text : String} {json : Json} {settings : Settings}
    (htext : Json.ofText? text = some json) (hjson : ofJson? json = some settings) :
    ofJsonText text = settings.validate.map fun _ => settings := by
  simp only [ofJsonText, htext, hjson]
  cases settings.validate <;> rfl

/-- A text of the JSON value of settings is read as the settings, if they are valid. -/
theorem ofJsonText_eq {text : String} {settings : Settings}
    (h : Json.ofText? text = some (.object settings.jsonMembers)) :
    ofJsonText text = settings.validate.map fun _ => settings :=
  ofJsonText_of_ofJson? h settings.ofJson?_jsonMembers

/-- **What is written for settings** is read as the settings, if they are valid. -/
theorem ofJsonText_prettyJson (settings : Settings) :
    ofJsonText settings.prettyJson = settings.validate.map fun _ => settings :=
  ofJsonText_eq settings.written_jsonMembers.ofText?_prettyObject

end Settings
end InfixCalc
