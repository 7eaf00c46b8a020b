import BookCatalog.Proofs.Text.Split
import BookCatalog.Text.Percent

/-!
Percent-encoding loses nothing and divides nothing. Reading what was written gives the bytes of the text
and so the text, and a server that takes a query string of one parameter apart finds that parameter.
-/
namespace BookCatalog.Text.Percent

/-- A character of ASCII that has no meaning of its own in a URL behind the question mark. -/
def isInert (c : Char) : Bool := c.toNat < 128 && ['&', '=', '#', '?', '+', ' '].all (c != ·)

theorem forall_byte {p : UInt8 → Prop} (each : ∀ n < 256, p (UInt8.ofNat n)) (byte : UInt8) : p byte := by
  have here := each byte.toNat byte.toNat_lt
  rwa [UInt8.ofNat_toNat] at here

theorem encodeByte_inert (byte : UInt8) : (encodeByte byte).all isInert = true := by
  apply forall_byte (p := fun byte => (encodeByte byte).all isInert = true)
  decide +kernel

/-- A byte that stands for itself is the whole of a character's UTF-8. -/
theorem utf8EncodeChar_of_isPlain (byte : UInt8) (plain : isPlain byte = true) :
    String.utf8EncodeChar (Char.ofNat byte.toNat) = [byte] ∧ Char.ofNat byte.toNat ≠ '%' := by
  revert plain
  apply forall_byte (p := fun byte => isPlain byte = true →
    String.utf8EncodeChar (Char.ofNat byte.toNat) = [byte] ∧ Char.ofNat byte.toNat ≠ '%')
  decide +kernel

theorem hexValue?_hexDigit : ∀ value < 16, hexValue? (hexDigit value) = some value := by
  decide +kernel

theorem decodeBytes_encodeByte (byte : UInt8) (rest : List Char) :
    decodeBytes (encodeByte byte ++ rest) = (decodeBytes rest).map (byte :: ·) := by
  by_cases plain : isPlain byte = true
  · obtain ⟨bytes, other⟩ := utf8EncodeChar_of_isPlain byte plain
    rw [encodeByte, if_pos plain]
    simp [decodeBytes, other, bytes]
  · have bound : byte.toNat < 256 := byte.toNat_lt
    have high := hexValue?_hexDigit (byte.toNat / 16) (by omega)
    have low := hexValue?_hexDigit (byte.toNat % 16) (by omega)
    have whole : 16 * (byte.toNat / 16) + byte.toNat % 16 = byte.toNat := Nat.div_add_mod ..
    rw [encodeByte, if_neg plain]
    simp only [List.cons_append, List.nil_append, decodeBytes, high, low, Option.bind_eq_bind,
      Option.bind_some, whole, UInt8.ofNat_toNat]
    cases decodeBytes rest <;> rfl

theorem decodeBytes_flatMap (bytes : List UInt8) :
    decodeBytes (bytes.flatMap encodeByte) = some bytes := by
  induction bytes with
  | nil => rfl
  | cons byte bytes ih => rw [List.flatMap_cons, decodeBytes_encodeByte, ih, Option.map_some]

/-- **Reading undoes writing,** whatever the text is and whatever it looks like. -/
theorem decode_encode (text : String) : decode (encode text) = some text := by
  have bytes := decodeBytes_flatMap text.toUTF8.data.toList
  rw [decode, encode, String.toList_ofList, bytes]
  simp [String.fromUTF8?, String.fromUTF8, text.isValidUTF8]

/-- What looks encoded already is encoded again. -/
example : encode "a&b é%26" = "a%26b%20%C3%A9%2526" := by decide +kernel

theorem encode_inert (text : String) : (encode text).toList.all isInert = true := by
  rw [encode, String.toList_ofList, List.all_flatMap, List.all_eq_true]
  intro byte _
  exact encodeByte_inert byte

/-- A character with a meaning of its own is not in an inert text. -/
theorem notMem_of_inert {chars : List Char} {c : Char} (inert : chars.all isInert = true)
    (live : isInert c = false) : c ∉ chars := by
  intro member
  rw [List.all_eq_true.mp inert c member] at live
  contradiction

theorem splitAll_of_notMem {separator : Char} {chars : List Char} (absent : separator ∉ chars) :
    splitAll separator chars = [chars] := by
  induction chars with
  | nil => rfl
  | cons c rest ih =>
    obtain ⟨differs, absent⟩ := List.ne_and_not_mem_of_not_mem_cons absent
    rw [splitAll, if_neg (Ne.symm differs), ih absent]

/-- **A server finds the one parameter that was written,** and the text under its name. -/
theorem parameters_encode {name : String} (inert : name.toList.all isInert = true) (text : String) :
    parameters (name ++ "=" ++ encode text) = [(name, some text)] := by
  have named : '=' ∉ name.toList := notMem_of_inert inert rfl
  have shape : (name ++ "=" ++ encode text).toList = name.toList ++ '=' :: (encode text).toList := by
    simp
  have whole : '&' ∉ name.toList ++ '=' :: (encode text).toList := by
    have name : '&' ∉ name.toList := notMem_of_inert inert rfl
    have value : '&' ∉ (encode text).toList := notMem_of_inert (encode_inert text) rfl
    simp [name, value]
  have blank : ∀ c ∈ (encode text).toList, (if c = '+' then ' ' else c) = id c := by
    intro c member
    have absent : '+' ∉ (encode text).toList := notMem_of_inert (encode_inert text) rfl
    have other : c ≠ '+' := ne_of_mem_of_not_mem member absent
    rw [if_neg other, id]
  rw [parameters, shape, splitAll_of_notMem whole]
  simp only [List.map_cons, List.map_nil, splitChars_append named,
    Option.getD_some, List.map_congr_left blank, List.map_id, String.ofList_toList, decode_encode]

end BookCatalog.Text.Percent
