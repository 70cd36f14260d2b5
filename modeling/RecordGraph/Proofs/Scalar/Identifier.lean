import RecordGraph.Scalar.Codec
import RecordGraph.Proofs.Text.Base64
/-! Identifiers on the wire. Every text has one wire text and every wire text that is read is that of a text. What
is not read is not the base 64 of any octets, or that of octets that stand for no text. -/

namespace RecordGraph

/-- The text of a value, a string without quotes around it. -/
def Value.unquoted : Value → String
  | .string s => s
  | v => v.text

namespace ScalarCodec

variable {encoded text reason : String} {v : Value}

/-- An identifier has one wire text only. -/
theorem encodeId_of_decodeId (h : decodeId encoded = .ok text) : encodeId text = encoded := by
  unfold decodeId at h
  split at h
  · cases h
  · rename_i octets hbase64
    split at h
    · cases h
    · rename_i chars hchars
      cases h
      have hsymbols : Text.octets (Text.Base64.encode octets) = Text.octets encoded.toList :=
        Text.Base64.octets_encode_of_decode hbase64
      rw [encodeId, String.toList_ofList, Text.octets_of_ofOctets hchars, Text.octets_injective hsymbols,
        String.ofList_toList]

/-- An identifier is read from the text that is written for it. -/
theorem decodeId_encodeId (text : String) : decodeId (encodeId text) = .ok text := by
  rw [decodeId, encodeId, String.toList_ofList, Text.Base64.decode_octets_encode]
  simp only [Text.ofOctets_octets, String.ofList_toList]

/-- Why a wire text is no identifier: it is not the base 64 of any octets, or that of octets that stand for no
text. -/
inductive NoIdentifier (encoded : String) : String → Prop
  | symbols (fault : Text.Base64.Fault) (h : ∀ octets, encoded.toList ≠ Text.Base64.encode octets) :
    NoIdentifier encoded fault.message
  | octets (fault : Text.OctetFault) {octets : List UInt8} (h : encoded.toList = Text.Base64.encode octets)
    (hno : ∀ text, Text.octets text ≠ octets) : NoIdentifier encoded fault.message

theorem decodeId_cases (encoded : String) : (∃ text, decodeId encoded = .ok text) ∨
    ∃ reason, decodeId encoded = .error (.malformed "ID" encoded reason) ∧ NoIdentifier encoded reason := by
  unfold decodeId
  cases hbase64 : Text.Base64.decode (Text.octets encoded.toList) with
  | error fault =>
    refine .inr ⟨fault.message, rfl, .symbols fault fun octets hencoded => ?_⟩
    rw [hencoded, Text.Base64.decode_octets_encode] at hbase64
    cases hbase64
  | ok octets =>
    have hencoded : encoded.toList = Text.Base64.encode octets :=
      Text.octets_injective (Text.Base64.octets_encode_of_decode hbase64).symm
    cases hchars : Text.ofOctets octets with
    | error fault =>
      refine .inr ⟨fault.message, by simp only [hchars], .octets fault hencoded fun text htext => ?_⟩
      rw [← htext, Text.ofOctets_octets] at hchars
      cases hchars
    | ok chars => exact .inl ⟨String.ofList chars, by simp only [hchars]⟩

theorem unquoted_of_idText? (h : idText? v = some text) : v.unquoted = text := by
  cases v <;> cases h <;> rfl

theorem serialize_id_eq_ok {w : WireValue} :
    id.serialize v = .ok w ↔ ∃ text, idText? v = some text ∧ w = .string (encodeId text) := by
  simp only [id]
  cases idText? v with
  | none => exact ⟨nofun, nofun⟩
  | some text =>
    constructor
    · rintro ⟨⟩
      exact ⟨text, rfl, rfl⟩
    · rintro ⟨text, ⟨⟩, rfl⟩
      rfl

theorem parse_id_string_eq_ok :
    id.parse (.string encoded) = .ok v ↔ ∃ text, decodeId encoded = .ok text ∧ v = .string text :=
  map_eq_ok.trans (by simp only [eq_comm])

/-- Texts and the wire texts of identifiers correspond to each other. Texts, numbers, truth values and decimals are
written, and what is written is read as the text of the value. What is read is written as it was read, so no two
wire texts stand for one identifier. Every other wire text is malformed, for a reason that holds of it. -/
theorem ids_correspond :
    (∀ v w, id.serialize v = .ok w → id.parse w = .ok (.string v.unquoted)) ∧
    (∀ v, (∃ w, id.serialize v = .ok w) ↔
      (∃ s, v = .string s) ∨ (∃ n, v = .number n) ∨ (∃ b, v = .bool b) ∨ ∃ d, v = .decimal d) ∧
    (∀ encoded v, id.parse (.string encoded) = .ok v → id.serialize v = .ok (.string encoded)) ∧
    (∀ encoded other v, id.parse (.string encoded) = .ok v → id.parse (.string other) = .ok v → encoded = other) ∧
    ∀ encoded, (∀ v, id.parse (.string encoded) ≠ .ok v) →
      ∃ reason, id.parse (.string encoded) = .error (.malformed "ID" encoded reason) ∧
        NoIdentifier encoded reason := by
  refine ⟨fun v w h => ?_, fun v => ?_, fun encoded v h => ?_, fun encoded other v h h' => ?_, fun encoded h => ?_⟩
  · obtain ⟨text, htext, rfl⟩ := serialize_id_eq_ok.mp h
    rw [unquoted_of_idText? htext, parse_id_string_eq_ok]
    exact ⟨text, decodeId_encodeId text, rfl⟩
  · simp only [serialize_id_eq_ok]
    cases v <;> simp [idText?]
  · obtain ⟨text, htext, rfl⟩ := parse_id_string_eq_ok.mp h
    exact serialize_id_eq_ok.mpr ⟨text, rfl, by rw [encodeId_of_decodeId htext]⟩
  · obtain ⟨text, htext, rfl⟩ := parse_id_string_eq_ok.mp h
    obtain ⟨text', htext', heq⟩ := parse_id_string_eq_ok.mp h'
    cases heq
    rw [← encodeId_of_decodeId htext, encodeId_of_decodeId htext']
  · rcases decodeId_cases encoded with ⟨text, htext⟩ | ⟨reason, hfail, hreason⟩
    · exact absurd (parse_id_string_eq_ok.mpr ⟨text, htext, rfl⟩) (h _)
    · exact ⟨reason, congrArg (Except.map Value.string) hfail, hreason⟩

/-- The identifier 42 has one wire text: with bits in the last symbol that belong to no octet it is malformed. -/
theorem fortyTwo_corresponds : id.serialize (.number (.signed 42)) = .ok (.string "NDI=") ∧
    id.parse (.string "NDI=") = .ok (.string "42") ∧ id.serialize (.string "42") = .ok (.string "NDI=") ∧
    (∀ v, id.parse (.string "NDJ=") ≠ .ok v) ∧
    ∃ reason, id.parse (.string "NDJ=") = .error (.malformed "ID" "NDJ=" reason) ∧ NoIdentifier "NDJ=" reason :=
  have hwritten : id.serialize (.number (.signed 42)) = .ok (.string "NDI=") := by rfl
  have hread : id.parse (.string "NDI=") = .ok (.string "42") := ids_correspond.1 _ _ hwritten
  have hbad : ∀ v, id.parse (.string "NDJ=") ≠ .ok v := by
    rintro v ⟨⟩
  ⟨hwritten, hread, ids_correspond.2.2.1 _ _ hread, hbad, ids_correspond.2.2.2.2 _ hbad⟩

end ScalarCodec

end RecordGraph
