import BookCatalog.Proofs.Double.Size
import BookCatalog.Proofs.Json.Fields
import BookCatalog.Proofs.Json.Number
import BookCatalog.Proofs.Ranking.Rearrangement
import BookCatalog.Proofs.Text.Blank
import BookCatalog.Json.Plain

/-!
Ratings as texts. A whole number scores the same whether it comes as a number or as the text of one, with blanks
around it or without: the digits are read back exactly, and then rounded as the number is. Replacing such ratings
changes no ranking.
-/
namespace BookCatalog

open Json

/-- A text that tells a whole number: what the number shows as, with blanks around it. -/
inductive Json.Tells : Json → Json → Prop where
  | padded (n : Int) (front back : String) (blank : Text.isBlankText front = true)
      (blank' : Text.isBlankText back = true) :
    Tells (.text (front ++ plain (.number (.whole n)) ++ back)) (.number (.whole n))

/-- A record that is another one but for a rating, which it may have as a text. -/
structure Record.Retells (told record : Record) : Prop where
  kind : told.kind = record.kind
  attributes : List.Forall₂
    (fun field other => field.1 = other.1 ∧ (field.2 = other.2 ∨ field.1 = scoreAttribute ∧ field.2.Tells other.2))
    told.attributes record.attributes

/-! ## Reading whole numbers -/

theorem digit_bounds {c : Char} (digit : c.isDigit = true) : 48 ≤ c.toNat ∧ c.toNat ≤ 57 := by
  simpa [Char.isDigit, UInt32.le_iff_toNat_le] using digit

theorem isBlank_of_isDigit {c : Char} (digit : c.isDigit = true) : Text.isBlank c = false := by
  have bounds := digit_bounds digit
  simp [Text.isBlank]
  omega

theorem toLower_of_isDigit {c : Char} (digit : c.isDigit = true) : c.toLower = c := by
  have bounds : 48 ≤ c.val.toNat ∧ c.val.toNat ≤ 57 := digit_bounds digit
  refine dif_neg fun upper => ?_
  have least : 65 ≤ c.val.toNat := UInt32.le_iff_toNat_le.mp upper.1
  omega

theorem toList_wholeText (n : Int) : (wholeText n).toList = Decimal.signed (n < 0) (Nat.toDigits 10 n.natAbs) :=
  String.toList_ofList

/-- There are no blanks in the text of a whole number. -/
theorem trim_wholeText (n : Int) : Text.trim (wholeText n) = wholeText n := by
  apply Text.trim_of_forall
  intro c member
  rw [toList_wholeText] at member
  have inside : c = '-' ∨ c ∈ Nat.toDigits 10 n.natAbs := by
    unfold Decimal.signed at member
    split at member
    · exact List.mem_cons.mp member
    · exact .inr member
  rcases inside with rfl | digit
  · decide
  · exact isBlank_of_isDigit (Nat.isDigit_of_mem_toDigits (by decide) (by decide) digit)

theorem sign_signed (negative : Bool) (n : ℕ) :
    Decimal.sign (Decimal.signed negative (Nat.toDigits 10 n)) = (negative, Nat.toDigits 10 n) := by
  cases negative with
  | true => rfl
  | false =>
    obtain ⟨first, others, shape, digit⟩ := toDigits_begins n
    rw [Decimal.signed, if_neg Bool.false_ne_true, shape]
    unfold Decimal.sign
    split
    · rename_i minus
      cases (List.cons.inj minus).1
      cases digit
    · rename_i plus
      cases (List.cons.inj plus).1
      cases digit
    · rfl

theorem unsigned?_toDigits (n : ℕ) : Decimal.unsigned? (Nat.toDigits 10 n) = some (n, 0) := by
  have ends : Ends [] := by simp [Ends]
  have read := digits_toDigits n ends
  rw [List.append_nil] at read
  unfold Decimal.unsigned?
  simp only [read, fraction_of_ends ends, exponentPart_of_ends ends, Option.getD_none, List.append_nil,
    Nat.toDigits_ne_nil, ↓reduceIte, digitsValue_toDigits, List.length_nil]
  rfl

/-- The text of a whole number is read as the number. -/
theorem readFloat?_wholeText (n : Int) : Decimal.readFloat? (wholeText n) = some (Decimal.ofInt n) := by
  obtain ⟨first, others, shape, digit⟩ := toDigits_begins n.natAbs
  -- Behind the sign there is a digit, and the words for an infinity and for no number begin with letters.
  have noWord : ∀ letter more, letter.isDigit = false →
      (Nat.toDigits 10 n.natAbs).map Char.toLower ≠ letter :: more := by
    rintro letter more other same
    rw [shape, List.map_cons, toLower_of_isDigit digit] at same
    rw [(List.cons.inj same).1, other] at digit
    cases digit
  unfold Decimal.readFloat?
  simp only [toList_wholeText, sign_signed, unsigned?_toDigits]
  rw [if_neg, if_neg]
  · rfl
  · rintro (word | word)
    · exact noWord 'i' ['n', 'f'] rfl word
    · exact noWord 'i' ['n', 'f', 'i', 'n', 'i', 't', 'y'] rfl word
  · exact noWord 'n' ['a', 'n'] rfl

/-! ## Scores of whole numbers -/

theorem plain_whole (n : Int) : plain (.number (.whole n)) = wholeText n := by
  simp [plain, compact, write, numberText]

theorem wholeText_ne_empty (n : Int) : wholeText n ≠ "" := by
  obtain ⟨first, others, shape, -⟩ := wholeText_begins n
  intro empty
  rw [empty] at shape
  cases shape

/-- A text that tells a number scores what the number does. -/
theorem Json.Tells.score_eq {told number : Json} (tells : told.Tells number) : told.score = number.score := by
  obtain ⟨n, front, back, blank, blank'⟩ := tells
  have trimmed : Text.trim (front ++ plain (.number (.whole n)) ++ back) = wholeText n := by
    rw [Text.trim_padded blank blank', plain_whole, trim_wholeText]
  have kept : (wholeText n).isEmpty = false := by simpa using wholeText_ne_empty n
  simp only [Json.score, trimmed, kept, readFloat?_wholeText, Option.getD_some]
  rfl

open Double in
/-- The double of a whole number is finite and the nearest one, a tie going to the even mantissa. -/
theorem ofInt_rounds {n : Int} (word : IsWord n) :
    (parts (Decimal.ofInt n)).isFinite ∧ Rounds n (amount (parts (Decimal.ofInt n))) := by
  have fits : n.natAbs ≤ 2 ^ 64 := by
    have size : UInt64.size = 2 ^ 64 := rfl
    unfold IsWord at word
    omega
  have finite := (ofNat_isWithin fits (by decide)).finite
  have rounds := (ofNat_approximates n.natAbs).rounds finite
  rcases lt_or_ge n 0 with negative | natural
  · have exact : (n : ℚ) = -(n.natAbs : ℚ) := by
      rw [Nat.cast_natAbs, abs_of_neg negative]
      push_cast
      ring
    obtain ⟨finite', opposite⟩ := neg_parts finite
    have taken : Decimal.ofInt n = -Float.ofScientific n.natAbs false 0 := by
      simp [Decimal.ofInt, Decimal.toFloat, negative]
    rw [taken, opposite, exact]
    exact ⟨finite', rounds.neg⟩
  · have exact : (n : ℚ) = (n.natAbs : ℚ) := by
      rw [Nat.cast_natAbs, abs_of_nonneg natural]
    have taken : Decimal.ofInt n = Float.ofScientific n.natAbs false 0 := by
      simp [Decimal.ofInt, Decimal.toFloat, natural.not_gt]
    rw [taken, exact]
    exact ⟨finite, rounds⟩

/-! ## Rankings -/

variable {told record : Record}

theorem Record.Retells.get?_eq (retells : told.Retells record) {key : String} (other : key ≠ scoreAttribute) :
    told.get? key = record.get? key := by
  have same : (told.get? key).map id = (record.get? key).map id := by
    refine Fields.map_get?_of_forall₂ id (retells.attributes.imp ?_)
    rintro field old ⟨keys, same | ⟨rating, -⟩⟩
    · exact ⟨keys, fun _ => same⟩
    · exact ⟨keys, fun named => absurd (named.symm.trans rating) other⟩
  simpa using same

theorem Record.Retells.map_get? {β : Type} (retells : told.Retells record) (key : String) (f : Float → β) :
    (told.get? key).map (fun value => f value.score) = (record.get? key).map fun value => f value.score := by
  refine Fields.map_get?_of_forall₂ _ (retells.attributes.imp ?_)
  rintro field old ⟨keys, same | ⟨-, tells⟩⟩
  · exact ⟨keys, fun _ => by rw [same]⟩
  · exact ⟨keys, fun _ => by rw [tells.score_eq]⟩

theorem Record.Retells.identifier?_eq (retells : told.Retells record) : told.identifier? = record.identifier? := by
  have other : (Field.identifier record.kind).key ≠ scoreAttribute := by cases record.kind <;> decide
  rw [Record.identifier?, retells.kind, retells.get?_eq other]
  rfl

namespace Ranking

theorem Entry.ofRecord?_retold (retells : told.Retells record) (key : String) :
    Entry.ofRecord? key told = Entry.ofRecord? key record := by
  rw [Entry.ofRecord?, retells.identifier?_eq]
  exact retells.map_get? key _

theorem eligible_retold {told records : List Record} (retells : List.Forall₂ Record.Retells told records)
    (key : String) : eligible told key = eligible records key := by
  induction retells with
  | nil => rfl
  | cons first _ ih =>
    simp only [eligible, List.filterMap_cons, Entry.ofRecord?_retold first] at ih ⊢
    rw [ih]

/-- **A rating ranks the same as a number and as a text.** For every whole number of 64 bits, the text it shows as,
with any blanks around it, scores the same double as the number, and that is the nearest one, a tie going to the even
mantissa. So a list of records and one where ratings are replaced by such texts have the same rankings. -/
theorem rating_text_ranks_alike :
    (∀ n : Int, IsWord n → ∀ front back : String, Text.isBlankText front = true → Text.isBlankText back = true →
      let number := Json.number (.whole n)
      let told := Json.text (front ++ number.plain ++ back)
      told.score = number.score ∧ (Double.parts told.score).isFinite ∧
        Double.Rounds n (Double.amount (Double.parts told.score))) ∧
    ∀ told records : List Record, List.Forall₂ Record.Retells told records →
      ∀ (key : String) (k : Nat), top told key k = top records key k := by
  constructor
  · intro n word front back blank blank' number told
    have same : told.score = number.score := (Tells.padded n front back blank blank').score_eq
    rw [same]
    exact ⟨rfl, ofInt_rounds word⟩
  · intro told records retells key k
    rw [top_eq_partitionSort, top_eq_partitionSort, eligible_retold retells]

/-- Halfway between two doubles, and with blanks of two sorts around the text. -/
theorem rating_text_ranks_alike_halfway :
    let number := Json.number (.whole 9007199254740993)
    let told := Json.text ("\u00a0" ++ number.plain ++ "\n")
    let rated (id : String) (rating : Json) : Record := ⟨.book, [("book_id", .text id), ("rating", rating)]⟩
    let records := [rated "1" number, rated "2" (.number (.whole 9007199254740992)), rated "3" .null]
    number.plain = "9007199254740993" ∧ told.score = number.score ∧
      Double.amount (Double.parts told.score) = 9007199254740992 ∧
      top [rated "1" told, rated "2" (.number (.whole 9007199254740992)), rated "3" .null] scoreAttribute 2 =
        top records scoreAttribute 2 ∧
      (top records scoreAttribute 2).map Entry.identifier = ["2", "1"] := by
  intro number told rated records
  have score := rating_text_ranks_alike.1 9007199254740993 (by decide) "\u00a0" "\n" (by decide) (by decide)
  have tells : told.Tells number := .padded 9007199254740993 "\u00a0" "\n" (by decide) (by decide)
  have first : (rated "1" told).Retells (rated "1" number) :=
    ⟨rfl, .cons ⟨rfl, .inl rfl⟩ (.cons ⟨rfl, .inr ⟨rfl, tells⟩⟩ .nil)⟩
  have same (record : Record) : record.Retells record :=
    ⟨rfl, List.forall₂_same.mpr fun _ _ => ⟨rfl, .inl rfl⟩⟩
  refine ⟨by decide +kernel, score.1, by decide +kernel, ?_, by decide +kernel⟩
  exact rating_text_ranks_alike.2 _ records (.cons first (.cons (same _) (.cons (same _) .nil))) scoreAttribute 2

end Ranking
end BookCatalog
