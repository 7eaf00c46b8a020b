import BookCatalog.Proofs.Text.Blank
import BookCatalog.Settings.Basic

/-!
The form of a base URL. It has a scheme in front, and behind it the address that was given; slashes at the end are
taken off, and blanks were before. If nothing is left of the address, the slashes of the scheme are taken off too;
and if it ended in blanks behind which there were slashes, it now ends in blanks. In every other case the form has
its scheme and stays as it is when it is taken again.
-/
namespace BookCatalog.Settings

open Text

/-- The scheme of a URL, or the one that is put in front where there is none. -/
def scheme (url : String) : List Char :=
  if "https://".toList.isPrefixOf url.toList then "https://".toList else "http://".toList

/-- What stands behind the scheme of a URL. -/
def behindScheme (url : String) : List Char :=
  if hasScheme url then url.toList.drop (scheme url).length else url.toList

/-- What a candidate has behind its scheme, without the blanks around the whole and the slashes at the end. -/
def address (candidate : String) : List Char := dropEndWhile (· == '/') (behindScheme (trim candidate))

variable {candidate url : String} {front behind : List Char}

/-! ## Taking a URL apart -/

theorem scheme_cases (url : String) : scheme url = "http://".toList ∨ scheme url = "https://".toList := by
  unfold scheme
  split
  · exact .inr rfl
  · exact .inl rfl

theorem hasScheme_iff : hasScheme url = true ↔ "http://".toList <+: url.toList ∨ "https://".toList <+: url.toList := by
  simp only [hasScheme, Bool.or_eq_true, List.isPrefixOf_iff_prefix]

/-- A URL that is a scheme and something behind it has that scheme, and that behind it. -/
theorem apart_of_toList (isScheme : front = "http://".toList ∨ front = "https://".toList)
    (shape : url.toList = front ++ behind) : hasScheme url = true ∧ scheme url = front ∧ behindScheme url = behind := by
  have own : hasScheme url = true ∧ scheme url = front := by
    rw [hasScheme, scheme, shape]
    rcases isScheme with rfl | rfl <;> exact ⟨rfl, rfl⟩
  refine ⟨own.1, own.2, ?_⟩
  rw [behindScheme, if_pos own.1, own.2, shape, List.drop_left]

/-- With its scheme in front, or with the one that is put there, a URL is the scheme and what stands behind it. -/
theorem toList_withScheme (url : String) :
    (if hasScheme url then url else "http://" ++ url).toList = scheme url ++ behindScheme url := by
  split
  · rename_i has
    rcases hasScheme_iff.mp has with ⟨behind, shape⟩ | ⟨behind, shape⟩
    · obtain ⟨-, own, rest⟩ := apart_of_toList (.inl rfl) shape.symm
      rw [own, rest, shape]
    · obtain ⟨-, own, rest⟩ := apart_of_toList (.inr rfl) shape.symm
      rw [own, rest, shape]
  · rename_i hasNone
    have other : ¬ "https://".toList.isPrefixOf url.toList := fun begins =>
      hasNone (hasScheme_iff.mpr (.inr (List.isPrefixOf_iff_prefix.mp begins)))
    rw [scheme, if_neg other, behindScheme, if_neg hasNone, String.toList_append]

/-! ## The form -/

theorem toList_normalizeUrl (given : isBlankText candidate = false) (fallback : String) :
    (normalizeUrl candidate fallback).toList =
      if address candidate = [] then dropEndWhile (· == '/') (scheme (trim candidate))
      else scheme (trim candidate) ++ address candidate := by
  rw [normalizeUrl, if_neg (by simp [given]), stripSlashes, String.toList_ofList, toList_withScheme, dropEndWhile_append]
  rfl

/-- A form does not end in a slash. -/
theorem getLast?_normalizeUrl (given : isBlankText candidate = false) (fallback : String) :
    (normalizeUrl candidate fallback).toList.getLast? ≠ some '/' := by
  rw [normalizeUrl, if_neg (by simp [given]), stripSlashes, String.toList_ofList]
  intro slash
  exact absurd (getLast?_dropEndWhile slash) (by decide)

/-- Without an address, the form is a scheme that has lost its slashes. -/
theorem normalizeUrl_of_no_address (given : isBlankText candidate = false) (bare : address candidate = [])
    (fallback : String) :
    normalizeUrl candidate fallback = "http:" ∨ normalizeUrl candidate fallback = "https:" := by
  have form := toList_normalizeUrl given fallback
  rw [if_pos bare] at form
  refine (scheme_cases (trim candidate)).imp (fun own => ?_) fun own => ?_
  all_goals
    apply String.toList_inj.mp
    rw [form, own]
    decide

/-- What has lost its slashes has no scheme, so it is given another one. -/
theorem normalizeUrl_ne_self_of_lost (lost : url = "http:" ∨ url = "https:") (other : String) :
    normalizeUrl url other ≠ url := by
  rcases lost with rfl | rfl <;> rw [normalizeUrl, if_neg (by decide)] <;> decide +kernel

/-- A form has a scheme in front exactly if there is an address behind it. -/
theorem hasScheme_normalizeUrl_iff (given : isBlankText candidate = false) (fallback : String) :
    hasScheme (normalizeUrl candidate fallback) = true ↔ address candidate ≠ [] := by
  constructor
  · intro has bare
    rcases normalizeUrl_of_no_address given bare fallback with form | form <;> rw [form] at has <;>
      exact absurd has (by decide)
  · intro addressed
    have form := toList_normalizeUrl given fallback
    rw [if_neg addressed] at form
    exact (apart_of_toList (scheme_cases _) form).1

/-! ## Taking the form again -/

/-- Trimming a URL with a scheme trims the end of what stands behind it. -/
theorem toList_trim_of_scheme (isScheme : front = "http://".toList ∨ front = "https://".toList)
    (shape : url.toList = front ++ behind) : (trim url).toList = front ++ dropEndWhile isBlank behind := by
  have start : (front ++ behind).dropWhile isBlank = front ++ behind := by
    rcases isScheme with rfl | rfl <;> rfl
  have own : dropEndWhile isBlank front = front := by
    rcases isScheme with rfl | rfl <;> decide
  rw [trim, String.toList_ofList, shape, start, dropEndWhile_append, own]
  split
  · rename_i none
    rw [none, List.append_nil]
  · rfl

/-- A form with an address stays as it is exactly if the address does not end in a blank. -/
theorem normalizeUrl_eq_self_iff (isScheme : front = "http://".toList ∨ front = "https://".toList)
    (shape : url.toList = front ++ behind) (nonempty : behind ≠ [])
    (noSlash : dropEndWhile (· == '/') behind = behind) (other : String) :
    normalizeUrl url other = url ↔ ∃ last, behind.getLast? = some last ∧ isBlank last = false := by
  have given : isBlankText url = false := by
    rw [isBlankText, shape]
    rcases isScheme with rfl | rfl <;> rfl
  have trimmed := toList_trim_of_scheme isScheme shape
  obtain ⟨-, own, rest⟩ := apart_of_toList isScheme trimmed
  have form := toList_normalizeUrl given other
  rw [address, own, rest] at form
  rw [← String.toList_inj, form, shape, ← dropEndWhile_eq_self_iff nonempty]
  constructor
  · intro same
    -- Dropping never adds anything, so what is equal to the whole in the end was never shortened.
    have kept : dropEndWhile (· == '/') (dropEndWhile isBlank behind) = behind := by
      split at same
      · have shorter := (isPrefix_dropEndWhile (· == '/') front).length_le
        have longer := congrArg List.length same
        rw [List.length_append] at longer
        exact absurd (List.eq_nil_of_length_eq_zero (by omega)) nonempty
      · exact List.append_cancel_left same
    have first := isPrefix_dropEndWhile isBlank behind
    have second := isPrefix_dropEndWhile (· == '/') (dropEndWhile isBlank behind)
    rw [kept] at second
    exact first.eq_of_length_le second.length_le
  · intro kept
    rw [kept, noSlash, if_neg nonempty]

/-- **What becomes of a base URL.** The form of a candidate that is not blank never ends in a slash. It has a scheme
in front exactly if the candidate has an address, which is anything but slashes behind its scheme; it then is the
scheme with the address. And it stays as it is when it is taken again, with whatever fallback, exactly if there is
an address that does not end in a blank. -/
theorem form_told_by_address (given : isBlankText candidate = false) (fallback : String) :
    let url := normalizeUrl candidate fallback
    url.toList.getLast? ≠ some '/' ∧ (hasScheme url = true ↔ address candidate ≠ []) ∧
      (address candidate ≠ [] → url.toList = scheme (trim candidate) ++ address candidate) ∧
      ∀ other, normalizeUrl url other = url ↔
        ∃ last, (address candidate).getLast? = some last ∧ isBlank last = false := by
  intro url
  have form := toList_normalizeUrl given fallback
  refine ⟨getLast?_normalizeUrl given fallback, hasScheme_normalizeUrl_iff given fallback,
    fun addressed => form.trans (if_neg addressed), fun other => ?_⟩
  by_cases bare : address candidate = []
  · have changed := normalizeUrl_ne_self_of_lost (normalizeUrl_of_no_address given bare fallback) other
    simp [url, changed, bare]
  · rw [if_neg bare] at form
    exact normalizeUrl_eq_self_iff (scheme_cases _) form bare (List.rdropWhile_idempotent _ _) other

/-- A host with blanks around it and slashes behind it gets a form that stays. -/
theorem form_told_by_address_local :
    isBlankText " localhost:5000// " = false ∧
      normalizeUrl " localhost:5000// " "" = "http://localhost:5000" ∧
      hasScheme (normalizeUrl " localhost:5000// " "") = true ∧
      ∀ other, normalizeUrl (normalizeUrl " localhost:5000// " "") other = normalizeUrl " localhost:5000// " "" := by
  have given : isBlankText " localhost:5000// " = false := by decide
  obtain ⟨-, has, -, again⟩ := form_told_by_address given ""
  refine ⟨given, by decide +kernel, has.mpr (by decide +kernel), fun other => (again other).mpr ?_⟩
  exact ⟨'0', by decide +kernel, by decide⟩

/-- A slash by itself takes the scheme down with it, and a slash behind a blank leaves the blank at the end. Neither
form stays as it is. -/
theorem form_lost_with_slashes :
    isBlankText "/" = false ∧ normalizeUrl "/" "" = "http:" ∧ hasScheme (normalizeUrl "/" "") = false ∧
      normalizeUrl (normalizeUrl "/" "") "" = "http://http:" ∧
      isBlankText "http://a /" = false ∧ normalizeUrl "http://a /" "" = "http://a " ∧
      normalizeUrl (normalizeUrl "http://a /" "") "" = "http://a" := by
  decide +kernel

end BookCatalog.Settings
