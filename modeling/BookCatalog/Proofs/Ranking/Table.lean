import BookCatalog.Proofs.Chart.Ranking
import BookCatalog.Proofs.Decimal.Fixed
import BookCatalog.Proofs.Text.Split

/-!
The rows of the table. They are read here as a reader would: the number of a row stands in front of its first point,
and the cell of the identifier is what stands behind it, as many characters as the column is wide. The column is
as wide as the longest identifier has bytes. No text has more characters than bytes, so every identifier fits into
its cell as a whole, and all cells are filled up to one number of characters.
-/
namespace BookCatalog.Ranking

/-- A number of blanks. -/
def blanks (count : Nat) : String := .ofList (List.replicate count ' ')

/-- The number that a row begins with, and the cell of the identifier behind it, when the column has a width. -/
def readRow? (width : Nat) (row : String) : Option (String × String) :=
  (Text.splitChars '.' row.toList).map fun (front, behind) =>
    (.ofList (front.dropWhile (· == ' ')), .ofList ((behind.drop 1).take width))

variable {entries : List (Entry Float)} {entry : Entry Float} {c : Char} {width place : Nat}

/-! ## The width of the column -/

/-- A text has at least a byte for each character. -/
theorem length_le_utf8ByteSize (text : String) : text.length ≤ text.utf8ByteSize := by
  have bytes : ∀ chars : List Char, chars.length ≤ String.utf8Len chars := by
    intro chars
    induction chars with
    | nil => exact Nat.le_refl 0
    | cons c chars ih =>
      have wide := c.utf8Size_pos
      rw [List.length_cons, String.utf8Len_cons]
      omega
  have size := bytes text.toList
  rwa [← String.utf8ByteSize_ofList, String.ofList_toList, String.length_toList] at size

theorem max?_eq_foldr {sizes : List Nat} (nonempty : sizes ≠ []) : sizes.max? = some (sizes.foldr max 0) := by
  induction sizes with
  | nil => exact absurd rfl nonempty
  | cons size sizes ih =>
    rw [List.max?_cons, List.foldr_cons]
    by_cases last : sizes = []
    · subst last
      simp
    · rw [ih last]
      rfl

/-- The column is as wide as the longest identifier has bytes. -/
theorem max?_eq_columnWidth (nonempty : entries ≠ []) :
    (entries.map fun entry => entry.identifier.utf8ByteSize).max? = some (columnWidth entries) :=
  max?_eq_foldr (by simpa using nonempty)

theorem length_le_columnWidth (member : entry ∈ entries) : entry.identifier.length ≤ columnWidth entries := by
  have widest := max?_eq_columnWidth (List.ne_nil_of_mem member)
  have bytes := (List.max?_eq_some_iff.mp widest).2 _ (List.mem_map_of_mem member)
  exact (length_le_utf8ByteSize entry.identifier).trans bytes

/-! ## What stands in a row -/

theorem alignLeft_eq (text : String) : alignLeft width text = text ++ blanks (width - text.length) := by
  apply String.toList_inj.mp
  simp [alignLeft, blanks, List.rightpad, String.length_toList]

theorem alignRight_eq (text : String) : alignRight width text = blanks (width - text.length) ++ text := by
  apply String.toList_inj.mp
  simp [alignRight, blanks, List.leftpad, String.length_toList]

theorem isDigit_of_mem_toString (member : c ∈ (toString place).toList) : c.isDigit = true := by
  rw [Nat.toString_eq_repr, Nat.toList_repr] at member
  exact Nat.isDigit_of_mem_toDigits (by omega) (by omega) member

theorem eq_of_mem_blanks {count : Nat} (member : c ∈ (blanks count).toList) : c = ' ' := by
  rw [blanks, String.toList_ofList] at member
  exact List.eq_of_mem_replicate member

/-- A filled cell has as many characters as the column is wide. -/
theorem length_append_blanks {text : String} (fits : text.length ≤ width) :
    (text ++ blanks (width - text.length)).length = width := by
  rw [String.length_append, blanks, String.length_ofList, List.length_replicate]
  omega

/-- In front of its first point a row has its number and blanks, and behind it the cell of the identifier. -/
theorem exists_toList_row (width place : Nat) (entry : Entry Float) :
    ∃ rest, (row width place entry).toList =
      ((blanks (3 - (toString (place + 1)).length)).toList ++ (toString (place + 1)).toList) ++ '.' :: ' ' ::
        ((entry.identifier ++ blanks (width - entry.identifier.length)).toList ++ rest) := by
  simp [row, alignRight_eq, alignLeft_eq]

theorem point_notMem_front (count place : Nat) : '.' ∉ (blanks count).toList ++ (toString place).toList := by
  intro member
  rcases List.mem_append.mp member with blank | digit
  · exact absurd (eq_of_mem_blanks blank) (by decide)
  · exact absurd (isDigit_of_mem_toString digit) (by decide)

/-- Without the blanks in front, the number is left. -/
theorem dropWhile_front (count place : Nat) :
    ((blanks count).toList ++ (toString place).toList).dropWhile (· == ' ') = (toString place).toList := by
  have blank : ∀ c ∈ (blanks count).toList, (c == ' ') = true := by
    intro c member
    exact beq_iff_eq.mpr (eq_of_mem_blanks member)
  rw [List.dropWhile_append_of_pos blank, List.dropWhile_eq_self_iff]
  intro inside isBlank
  have digit := isDigit_of_mem_toString (List.getElem_mem inside)
  rw [beq_iff_eq.mp isBlank] at digit
  exact absurd digit (by decide)

/-- A row is read as its number and the identifier, filled up with blanks, if that fits. -/
theorem readRow?_row (fits : entry.identifier.length ≤ width) (place : Nat) :
    readRow? width (row width place entry) =
      some (toString (place + 1), entry.identifier ++ blanks (width - entry.identifier.length)) := by
  have filled := length_append_blanks fits
  obtain ⟨rest, shape⟩ := exists_toList_row width place entry
  generalize entry.identifier ++ blanks (width - entry.identifier.length) = cell at *
  rw [readRow?, shape, Text.splitChars_append (point_notMem_front _ _)]
  simp only [Option.map_some, dropWhile_front, List.drop_one, List.tail_cons, String.ofList_toList,
    List.take_left' (String.length_toList.trans filled)]

/-- A row has a line break in it only if the identifier has. -/
theorem notMem_row (absent : '\n' ∉ entry.identifier.toList) : '\n' ∉ (row width place entry).toList := by
  have blank : ∀ count, '\n' ∉ (blanks count).toList := by
    intro count member
    exact absurd (eq_of_mem_blanks member) (by decide)
  have number : '\n' ∉ (toString (place + 1)).toList := by
    intro member
    exact absurd (isDigit_of_mem_toString member) (by decide)
  have score : '\n' ∉ (Decimal.fixedText 2 entry.score).toList := by
    intro member
    rcases Decimal.mem_fixedText (by omega) entry.score member with digit | sign
    · exact absurd digit (by decide)
    · exact absurd sign (by decide)
  simpa [row, alignRight_eq, alignLeft_eq, absent, blank, score] using number

/-! ## The table -/

/-- Where no identifier has a line break, the lines of a table are its rows. -/
theorem lines_of_table (nonempty : entries ≠ []) (absent : ∀ entry ∈ entries, '\n' ∉ entry.identifier.toList) :
    (table entries).toList.splitOn '\n' = (rows entries).map String.toList := by
  rw [table_eq, if_neg (by simpa using nonempty), String.toList_intercalate]
  apply List.splitOn_intercalate
  · rw [List.forall_mem_map, rows, List.forall_mem_map]
    intro placed member
    exact notMem_row (absent placed.1 (List.fst_mem_of_mem_zipIdx member))
  · simpa [rows] using nonempty

/-- **Every entry has a row, and the rows are aligned.** In the order of the ranking and numbered from one, each row
holds the whole identifier, filled up with blanks to as many characters as the longest identifier has bytes; so the
cells of all identifiers have one number of characters. The rows are the lines of the table, unless an identifier
has line breaks of its own. -/
theorem table_rows_align (nonempty : entries ≠ []) :
    ∃ width, (entries.map fun entry => entry.identifier.utf8ByteSize).max? = some width ∧
      table entries = "\n".intercalate (rows entries) ∧
      ((∀ entry ∈ entries, '\n' ∉ entry.identifier.toList) →
        (table entries).toList.splitOn '\n' = (rows entries).map String.toList) ∧
      (rows entries).map (readRow? width) = ((entries.zipIdx 1).map fun (entry, number) =>
        some (toString number, entry.identifier ++ blanks (width - entry.identifier.length))) ∧
      ∀ entry ∈ entries, (entry.identifier ++ blanks (width - entry.identifier.length)).length = width := by
  refine ⟨columnWidth entries, max?_eq_columnWidth nonempty, ?_, lines_of_table nonempty, ?_,
    fun entry member => length_append_blanks (length_le_columnWidth member)⟩
  · rw [table_eq, if_neg (by simpa using nonempty)]
  · -- Places count from zero and numbers from one, so both sides are maps over the places.
    rw [rows, List.map_map, List.zipIdx_succ, List.map_map]
    apply List.map_congr_left
    rintro ⟨entry, place⟩ member
    have fits : entry.identifier.length ≤ columnWidth entries :=
      length_le_columnWidth (List.fst_mem_of_mem_zipIdx member)
    rw [Function.comp_apply, Function.comp_apply, readRow?_row fits place]

/-- Six bytes are the widest identifier here, and it has two characters. -/
theorem table_rows_align_accented :
    let entries : List (Entry Float) := [⟨"Zoë", 4.5⟩, ⟨"日本", 3.0⟩, ⟨"b10", 0.5⟩]
    entries ≠ [] ∧ (∀ entry ∈ entries, '\n' ∉ entry.identifier.toList) ∧
      (table entries).toList.splitOn '\n' = (rows entries).map String.toList ∧
      (rows entries).map (readRow? 6) = [some ("1", "Zoë   "), some ("2", "日本    "), some ("3", "b10   ")] := by
  intro entries
  have nonempty : entries ≠ [] := List.cons_ne_nil _ _
  have absent : ∀ entry ∈ entries, '\n' ∉ entry.identifier.toList := by simp [entries]
  obtain ⟨width, widest, -, lines, read, -⟩ := table_rows_align nonempty
  have six : 6 = width := Option.some.inj ((by decide +kernel : some 6 = _).trans widest)
  subst six
  exact ⟨nonempty, absent, lines absent, read.trans (by decide +kernel)⟩

end BookCatalog.Ranking
