import BookCatalog.Command.Arguments
import BookCatalog.Proofs.Except
import BookCatalog.Proofs.Query.Search

/-!
What a line says with a long switch, and that it is heard. The value of a switch is read off the line
as a whole, and the scan, which works from the left with values that are not accepted yet, comes to the
same value wherever the switch stands and however its value is attached.
-/
namespace BookCatalog.Command

/-- The value that a line gives to a long switch: what is attached to the switch by an equals sign, or
else the next argument. Behind a lone `--` nothing is a switch. -/
def valueOf (name : String) : List String → Option String
  | [] => none
  | argument :: rest =>
    if argument = "--" then none
    else match Text.splitOnce '=' argument with
      | some (front, value) => if front = "--" ++ name then some value else valueOf name rest
      | none => if argument = "--" ++ name then rest.head? else valueOf name rest

example : valueOf "op" ["search", "--url=--op", "--op=or", "book", "--", "--op", "and"] = some "or" := by
  decide +kernel

variable {name argument : String} {rest : List String} {chars : List Char}

theorem ofList_eq_switch :
    String.ofList ('-' :: '-' :: chars) = "--" ++ name ↔ String.ofList chars = name := by
  rw [← String.toList_inj, ← String.toList_inj]
  simp

theorem valueOf_bare (bare : ∀ chars, argument.toList ≠ '-' :: '-' :: chars) :
    valueOf name (argument :: rest) = valueOf name rest := by
  have lone : argument ≠ "--" := by
    rintro rfl
    exact bare [] rfl
  have named : argument ≠ "--" ++ name := by
    rintro rfl
    exact bare name.toList (by simp)
  have front : String.ofList (argument.toList.takeWhile (· != '=')) ≠ "--" ++ name := by
    intro same
    have whole := List.takeWhile_append_dropWhile (p := (· != '=')) (l := argument.toList)
    rw [← String.toList_inj, String.toList_ofList] at same
    rw [same] at whole
    exact bare _ (by rw [← whole]; simp; rfl)
  rw [valueOf, if_neg lone, Text.splitOnce, Text.splitChars_eq]
  cases argument.toList.dropWhile (· != '=') with
  | nil => exact if_neg named
  | cons separator value => exact if_neg front

theorem valueOf_long (spelled : argument.toList = '-' :: '-' :: chars) (lone : argument ≠ "--") :
    valueOf name (argument :: rest) =
      if String.ofList (chars.takeWhile (· != '=')) = name then
        match chars.dropWhile (· != '=') with
        | [] => rest.head?
        | _ :: value => some (.ofList value)
      else valueOf name rest := by
  have whole := List.takeWhile_append_dropWhile (p := (· != '=')) (l := chars)
  have split : argument = String.ofList ('-' :: '-' :: chars) := by rw [← spelled, String.ofList_toList]
  rw [valueOf, if_neg lone, Text.splitOnce, Text.splitChars_eq, spelled]
  have dash : ('-' != '=') = true := rfl
  simp only [List.dropWhile_cons, List.takeWhile_cons, dash, ↓reduceIte]
  cases behind : chars.dropWhile (· != '=') with
  | nil =>
    rw [behind, List.append_nil] at whole
    simp only [Option.map_none, whole, split, ofList_eq_switch]
  | cons separator value =>
    simp only [Option.map_some, ofList_eq_switch]

/-! ## What one argument adds -/

/-- The values taken in, with one that is not accepted yet. -/
def Progress.values (progress : Progress) : Given :=
  match progress.pending with
  | some ⟨slot, _, some value⟩ => progress.given ++ [(slot, value)]
  | _ => progress.given

/-- The slot that has the next argument as its value. -/
def Progress.awaited? (progress : Progress) : Option Slot :=
  match progress.pending with
  | some ⟨slot, _, none⟩ => some slot
  | _ => none

/-- The value that a slot will have, from what was taken in and from the rest of the line, on which it goes
by a name. -/
def Progress.prospect (progress : Progress) (name : String) (slot : Slot) (arguments : List String) :
    Option String :=
  (progress.values.lookup slot).or
    (if progress.awaited? = some slot then arguments.head? else valueOf name arguments)

/-- Between two points of a scan, neither in the midst of a switch at first, values are added, and a
slot may be left waiting. -/
structure Adds (before after : Progress) (added : Given) (next : Option Slot) : Prop where
  ready : before.awaited? = none
  values : after.values = before.values ++ added
  awaited : after.awaited? = next

/-- A step of a scan that leaves a slot as it was. -/
structure Spares (slot : Slot) (before after : Progress) : Prop where
  ready : before.awaited? = none
  value : after.values.lookup slot = before.values.lookup slot
  awaited : after.awaited? ≠ some slot

variable {slot other : Slot} {before between after : Progress}

theorem lookup_concat {given : Given} {value : String} :
    (given ++ [(other, value)]).lookup slot =
      (given.lookup slot).or (if other = slot then some value else none) := by
  by_cases same : other = slot
  · simp [List.lookup_append, same]
  · simp [List.lookup_append, List.lookup_cons, same, beq_false_of_ne (Ne.symm same)]

theorem Adds.spares {value : String} (adds : Adds before after [(other, value)] none)
    (differ : other ≠ slot) : Spares slot before after where
  ready := adds.ready
  value := by simp [adds.values, lookup_concat, differ]
  awaited := by simp [adds.awaited]

theorem Spares.trans (first : Spares slot before between) (second : Spares slot between after) :
    Spares slot before after :=
  ⟨first.ready, second.value.trans first.value, second.awaited⟩

/-- The slot that a switch fills. -/
def Role.slot? : Role → Option Slot
  | .flag slot | .valued slot _ => some slot
  | .help | .version => none

namespace Grammar

variable {grammar : Grammar} {progress progress' : Progress} {slot : Slot} {repeatable : Bool}
  {value : String} {role : Role} {attached : Option String}

theorem given_of_accept (accepted : grammar.accept progress slot repeatable value = .ok progress') :
    progress'.given = progress.given ++ [(slot, value)] ∧ progress'.pending = none := by
  unfold accept at accepted
  split at accepted
  · cases accepted
  · split at accepted
    · cases accepted
    · cases accepted
      exact ⟨rfl, rfl⟩

/-- Settling accepts what is not accepted yet. -/
theorem given_of_settle (settled : grammar.settle progress = .ok progress') :
    progress.awaited? = none ∧ progress'.given = progress.values ∧ progress'.pending = none := by
  unfold settle at settled
  split at settled
  · rename_i idle
    cases settled
    simp [Progress.awaited?, Progress.values, idle]
  · cases settled
  · rename_i slot repeatable value held
    obtain ⟨given, idle⟩ := given_of_accept settled
    simp [Progress.awaited?, Progress.values, held, given, idle]

theorem adds_of_accept {ready : Progress} (settled : grammar.settle progress = .ok ready)
    (accepted : grammar.accept ready slot repeatable value = .ok progress') :
    Adds progress progress' [(slot, value)] none := by
  obtain ⟨free, given, -⟩ := given_of_settle settled
  obtain ⟨given', idle⟩ := given_of_accept accepted
  exact ⟨free, by simp [Progress.values, idle, given', given], by simp [Progress.awaited?, idle]⟩

/-- A valued switch adds the value attached to it, or else waits for it. -/
theorem adds_of_take_valued
    (taken : grammar.take progress (.valued slot repeatable) attached = .ok progress') :
    match attached with
    | some value => Adds progress progress' [(slot, value)] none
    | none => Adds progress progress' [] (some slot) := by
  cases attached with
  | some value =>
    obtain ⟨ready, settled, accepted⟩ := bind_ok taken
    exact adds_of_accept settled accepted
  | none =>
    obtain ⟨ready, settled, waits⟩ := bind_ok taken
    cases waits
    obtain ⟨free, given, -⟩ := given_of_settle settled
    exact ⟨free, by simp [Progress.values, given], rfl⟩

theorem spares_of_take (taken : grammar.take progress role attached = .ok progress')
    (differ : role.slot? ≠ some slot) : Spares slot progress progress' := by
  cases role with
  | help | version =>
    cases attached with
    | some value => cases taken
    | none =>
      obtain ⟨ready, -, refused⟩ := bind_ok taken
      cases refused
  | flag other =>
    cases attached with
    | some value => cases taken
    | none =>
      obtain ⟨ready, settled, accepted⟩ := bind_ok taken
      exact (adds_of_accept settled accepted).spares fun same => differ (congrArg some same)
  | valued other repeatable =>
    have adds := adds_of_take_valued taken
    cases attached with
    | some value => exact adds.spares fun same => differ (congrArg some same)
    | none => exact ⟨adds.ready, by simp [adds.values], adds.awaited ▸ differ⟩

theorem spares_of_takeBare {bareOnly : Bool} (foreign : slot ∉ grammar.positions)
    (taken : grammar.takeBare progress bareOnly argument = .ok progress') :
    Spares slot progress progress' := by
  unfold takeBare at taken
  split at taken
  · rename_i other position
    obtain ⟨ready, settled, placed⟩ := bind_ok taken
    cases placed
    obtain ⟨free, given, -⟩ := given_of_settle settled
    have adds : Adds progress
        { ready with pending := some ⟨other, false, some argument⟩, filled := progress.filled + 1 }
        [(other, argument)] none := ⟨free, by simp [Progress.values, given], rfl⟩
    apply adds.spares
    rintro rfl
    exact foreign (List.mem_of_getElem? position)
  · split at taken <;> cases taken

/-- A group of letters fills slots of switches that have a letter. -/
theorem spares_of_takeLetters {letters : List Char}
    (lettered : ∀ switch ∈ grammar.switches, switch.short.isSome → switch.role.slot? ≠ some slot)
    (taken : grammar.takeLetters progress letters = .ok progress') (some_letter : letters ≠ []) :
    Spares slot progress progress' := by
  induction letters generalizing progress with
  | nil => exact absurd rfl some_letter
  | cons letter rest ih =>
    unfold takeLetters at taken
    split at taken
    · cases taken
    · rename_i switch found
      have short : switch.short = some letter := by simpa using List.find?_some found
      have differ := lettered switch (List.mem_of_find?_eq_some found) (by simp [short])
      split at taken
      · -- The rest of the group is the value of this letter, so no other letter follows.
        rename_i other repeatable valued
        exact spares_of_take taken (valued ▸ differ)
      · obtain ⟨between, first, others⟩ := bind_ok taken
        have spares := spares_of_take first differ
        cases rest with
        | nil =>
          cases others
          exact spares
        | cons next rest => exact spares.trans (ih others (by simp))

/-! ## The scan of a level -/

/-- A slot that one long switch fills and nothing else does. -/
structure Owns (grammar : Grammar) (name : String) (slot : Slot) : Prop where
  found : ∃ switch repeatable, grammar.switches.find? (·.long == some name) = some switch ∧
    switch.role = .valued slot repeatable
  alone : ∀ switch ∈ grammar.switches, switch.role.slot? = some slot →
    switch.long = some name ∧ switch.short = none
  foreign : slot ∉ grammar.positions

theorem prospect_of_spares (spares : Spares slot progress progress')
    (skips : valueOf name (argument :: rest) = valueOf name rest) :
    progress'.prospect name slot rest = progress.prospect name slot (argument :: rest) := by
  simp [Progress.prospect, spares.value, spares.awaited, spares.ready, skips]

theorem prospect_of_takeLong (owns : grammar.Owns name slot) {chars : List Char}
    (spelled : argument.toList = '-' :: '-' :: chars) (lone : argument ≠ "--")
    (taken : grammar.takeLong progress chars = .ok progress') :
    progress'.prospect name slot rest = progress.prospect name slot (argument :: rest) := by
  have long : valueOf name (argument :: rest) = _ := valueOf_long spelled lone
  unfold takeLong at taken
  cases found : grammar.switches.find? (·.long == some (String.ofList (chars.takeWhile (· != '=')))) with
  | none =>
    simp only [found] at taken
    cases taken
  | some switch =>
    simp only [found] at taken
    by_cases same : String.ofList (chars.takeWhile (· != '=')) = name
    · obtain ⟨own, repeatable, found', valued⟩ := owns.found
      rw [same, found'] at found
      cases found
      rw [if_pos same] at long
      rw [valued] at taken
      cases behind : chars.dropWhile (· != '=') with
      | nil =>
        rw [behind] at taken long
        have adds := adds_of_take_valued taken
        simp [Progress.prospect, adds.ready, adds.values, adds.awaited, long]
      | cons separator value =>
        rw [behind] at taken long
        have adds := adds_of_take_valued taken
        simp [Progress.prospect, adds.ready, adds.values, adds.awaited, long, lookup_concat]
    · rw [if_neg same] at long
      refine prospect_of_spares (spares_of_take taken fun fills => ?_) long
      have named : switch.long = some (String.ofList (chars.takeWhile (· != '='))) := by
        simpa using List.find?_some found
      have own := (owns.alone switch (List.mem_of_find?_eq_some found) fills).1
      exact same (Option.some.inj (named.symm.trans own))

/-- Taking an argument in does not change what value a slot will have. -/
theorem prospect_of_takeArgument (owns : grammar.Owns name slot) (lone : argument ≠ "--")
    (taken : grammar.takeArgument progress false argument = .ok progress') :
    progress'.prospect name slot rest = progress.prospect name slot (argument :: rest) := by
  unfold takeArgument at taken
  split at taken
  · rename_i spelled
    exact prospect_of_takeLong owns spelled lone taken
  · rename_i letter letters single _ spelled
    have bare : ∀ chars, argument.toList ≠ '-' :: '-' :: chars := by
      intro chars long
      rw [spelled] at long
      cases long
      exact single rfl
    refine prospect_of_spares (spares_of_takeLetters ?_ taken (by simp)) (valueOf_bare bare)
    intro switch listed lettered fills
    rw [(owns.alone switch listed fills).2] at lettered
    cases lettered
  · rename_i notLong _
    have bare : ∀ chars, argument.toList ≠ '-' :: '-' :: chars := fun chars => notLong chars rfl
    have skips : valueOf name (argument :: rest) = valueOf name rest := valueOf_bare bare
    split at taken
    · -- A switch waits, and has the argument as its value.
      rename_i other repeatable _ waiting
      cases taken
      by_cases own : other = slot
      · simp [Progress.prospect, Progress.values, Progress.awaited?, waiting, own, lookup_concat]
      · simp [Progress.prospect, Progress.values, Progress.awaited?, waiting, own, lookup_concat,
          skips]
    · exact prospect_of_spares (spares_of_takeBare owns.foreign taken) skips

/-- Behind a lone `--` no slot is filled that bare arguments do not fill. -/
theorem lookup_of_scan_bare (foreign : slot ∉ grammar.positions) {arguments : List String} {scan : Scan}
    {final : Progress} (scanned : grammar.scan progress true arguments = .ok scan)
    (settled : grammar.settle scan.progress = .ok final) :
    progress.awaited? = none ∧ final.given.lookup slot = progress.values.lookup slot := by
  induction arguments generalizing progress with
  | nil =>
    cases scanned
    obtain ⟨ready, given, -⟩ := given_of_settle settled
    exact ⟨ready, by rw [given]⟩
  | cons argument rest ih =>
    obtain ⟨between, taken, scanned⟩ := bind_ok scanned
    have spares := spares_of_takeBare foreign taken
    exact ⟨spares.ready, (ih scanned).2.trans spares.value⟩

/-- What a scan gives a slot is the value that was in prospect: taking in one argument after the other
leaves the prospect as it is, and at the end of the line it is what was given. -/
theorem lookup_of_scan (owns : grammar.Owns name slot) (deepest : grammar.commands = [])
    {arguments : List String} {scan : Scan} {final : Progress}
    (scanned : grammar.scan progress false arguments = .ok scan)
    (settled : grammar.settle scan.progress = .ok final) :
    final.given.lookup slot = progress.prospect name slot arguments := by
  induction arguments generalizing progress with
  | nil =>
    cases scanned
    obtain ⟨ready, given, -⟩ := given_of_settle settled
    simp [Progress.prospect, ready, given, valueOf]
  | cons argument rest ih =>
    simp only [Grammar.scan, deepest, List.contains_nil, Bool.and_false] at scanned
    by_cases lone : argument = "--"
    · simp only [lone] at scanned
      obtain ⟨ready, same⟩ := lookup_of_scan_bare owns.foreign scanned settled
      simp [Progress.prospect, ready, same, valueOf, lone]
    · simp only [lone] at scanned
      obtain ⟨between, taken, scanned⟩ := bind_ok scanned
      rw [ih scanned, prospect_of_takeArgument owns lone taken]

/-- No command begins behind a lone `--`. -/
theorem command_of_scan_bare {arguments : List String} {scan : Scan}
    (scanned : grammar.scan progress true arguments = .ok scan) : scan.command = none := by
  induction arguments generalizing progress with
  | nil =>
    cases scanned
    rfl
  | cons argument rest ih =>
    obtain ⟨between, -, scanned⟩ := bind_ok scanned
    exact ih scanned

/-- An argument that is taken in where a switch has no place is not this switch. -/
theorem valueOf_of_takeArgument (absent : ∀ switch ∈ grammar.switches, switch.long ≠ some name)
    (lone : argument ≠ "--") (taken : grammar.takeArgument progress false argument = .ok progress') :
    valueOf name (argument :: rest) = valueOf name rest := by
  by_cases long : ∃ chars, argument.toList = '-' :: '-' :: chars
  · obtain ⟨chars, spelled⟩ := long
    simp only [takeArgument, spelled, takeLong] at taken
    split at taken
    · rename_i switch found
      have named : switch.long = some (String.ofList (chars.takeWhile (· != '='))) := by
        simpa using List.find?_some found
      rw [valueOf_long spelled lone, if_neg]
      rintro rfl
      exact absent switch (List.mem_of_find?_eq_some found) named
    · cases taken
  · exact valueOf_bare (not_exists.mp long)

/-- In front of a command, a line says nothing with a switch that has no place there. -/
theorem valueOf_of_scan (absent : ∀ switch ∈ grammar.switches, switch.long ≠ some name)
    (plain : ∀ command ∈ grammar.commands, command.toList.head? ≠ some '-')
    {arguments behind : List String} {command : String} {scan : Scan}
    (scanned : grammar.scan progress false arguments = .ok scan)
    (begun : scan.command = some (command, behind)) :
    valueOf name arguments = valueOf name behind := by
  induction arguments generalizing progress with
  | nil =>
    cases scanned
    cases begun
  | cons argument rest ih =>
    unfold Grammar.scan at scanned
    split at scanned
    · rename_i named
      cases scanned
      cases begun
      simp only [Bool.not_false, Bool.true_and, Bool.and_eq_true, List.contains_iff_mem] at named
      refine valueOf_bare fun chars long => plain _ named.2 ?_
      rw [long, List.head?_cons]
    · split at scanned
      · rw [command_of_scan_bare scanned] at begun
        cases begun
      · rename_i lone
        obtain ⟨between, taken, scanned⟩ := bind_ok scanned
        rw [valueOf_of_takeArgument absent (by simpa using lone) taken, ih scanned]

end Grammar

/-! ## The line of a search -/

/-- A line that is read holds a command, and what stands behind it is read as that command. -/
theorem readArguments_ok {catalogUrl : Option String} {arguments : List String} {parsed : Arguments}
    (read : readArguments catalogUrl arguments = .ok parsed) :
    ∃ scan command behind verb, outerGrammar.scan .start false arguments = .ok scan ∧
      scan.command = some (command, behind) ∧ readCommand verb behind = .ok parsed.command := by
  obtain ⟨scan, scanned, read⟩ := bind_ok read
  dsimp only at read
  split at read
  · obtain ⟨command, nothing, read⟩ := bind_ok read
    cases nothing
    obtain ⟨progress, -, read⟩ := bind_ok read
    dsimp only at read
    split at read <;> cases read
  · rename_i command behind begun
    split at read
    · rename_i verb _
      obtain ⟨command, found, read⟩ := bind_ok read
      obtain ⟨progress, -, read⟩ := bind_ok read
      cases made : readCommand verb behind with
      | error problem =>
        rw [made] at found
        cases found
      | ok command =>
        rw [made] at found
        cases found
        cases read
        exact ⟨scan, _, behind, verb, scanned, begun, made⟩
    · obtain ⟨_, refused, -⟩ := bind_ok read
      cases refused

namespace Given

variable {given : Given} {search : Search} {verb : Verb}

/-- Only the values of a search make up a search. -/
theorem command_search (made : Given.command given verb = .ok (.search search)) :
    verb = .search ∧ Given.search given = .ok search := by
  cases verb with
  | search =>
    obtain ⟨made', searched, same⟩ := bind_ok made
    cases same
    exact ⟨rfl, searched⟩
  | get | delete | createMany =>
    obtain ⟨kind, -, made⟩ := bind_ok made
    obtain ⟨text, -, made⟩ := bind_ok made
    cases made
  | top =>
    obtain ⟨kind, -, made⟩ := bind_ok made
    split at made <;>
    · obtain ⟨count, -, made⟩ := bind_ok made
      cases made
  | update =>
    obtain ⟨kind, -, made⟩ := bind_ok made
    obtain ⟨id, -, made⟩ := bind_ok made
    obtain ⟨assignments, -, made⟩ := bind_ok made
    cases made
  | create =>
    obtain ⟨kind, -, made⟩ := bind_ok made
    obtain ⟨assignments, -, made⟩ := bind_ok made
    cases made
  | scrape =>
    obtain ⟨target, -, made⟩ := bind_ok made
    cases made

theorem search_ok (made : Given.search given = .ok search) :
    isComplete given = true ∧ (given.lookup .operator).map Operator.read = search.operator.map .ok ∧
      given.lookup .field2 = search.field2 ∧ given.lookup .value2 = search.value2 := by
  obtain ⟨kind, -, made⟩ := bind_ok made
  obtain ⟨field, -, made⟩ := bind_ok made
  split at made
  · rename_i complete
    cases word : given.lookup .operator with
    | none =>
      simp only [word] at made
      cases made
      exact ⟨complete, rfl, rfl, rfl⟩
    | some word' =>
      simp only [word] at made
      obtain ⟨operator, read, made⟩ := bind_ok made
      cases made
      cases known : Operator.read word' with
      | error error =>
        rw [readAs, known] at read
        cases read
      | ok operator' =>
        rw [readAs, known] at read
        cases read
        exact ⟨complete, congrArg some known, rfl, rfl⟩
  · cases made

/-- The three values of a second clause are given together or not at all. -/
theorem all_or_none (made : Given.search given = .ok search) :
    (search.operator = none ∧ search.field2 = none ∧ search.value2 = none) ∨
      ∃ operator field2 value2, search.operator = some operator ∧ search.field2 = some field2 ∧
        search.value2 = some value2 := by
  obtain ⟨complete, operator, field2, value2⟩ := search_ok made
  have word : (given.lookup .operator).isSome = search.operator.isSome := by
    simpa using congrArg Option.isSome operator
  simp only [isComplete, requirements, has, List.all_cons, List.all_nil, Bool.and_true, word, field2,
    value2] at complete
  cases first : search.operator <;> cases second : search.field2 <;> cases third : search.value2 <;>
    simp [first, second, third] at complete ⊢

end Given

theorem search_owns_op : Verb.search.grammar.Owns "op" .operator :=
  ⟨⟨_, _, rfl, rfl⟩, by decide, by decide⟩

theorem search_owns_field2 : Verb.search.grammar.Owns "field2" .field2 :=
  ⟨⟨_, _, rfl, rfl⟩, by decide, by decide⟩

theorem search_owns_value2 : Verb.search.grammar.Owns "value2" .value2 :=
  ⟨⟨_, _, rfl, rfl⟩, by decide, by decide⟩

variable {catalogUrl : Option String} {arguments : List String} {parsed : Arguments} {search : Search}

/-- A search is made up of the values that the line gives to its switches. -/
theorem search_of_line (read : readArguments catalogUrl arguments = .ok parsed)
    (searches : parsed.command = .search search) :
    ∃ given, Given.search given = .ok search ∧ ∀ name slot, Verb.search.grammar.Owns name slot →
      (∀ switch ∈ outerGrammar.switches, switch.long ≠ some name) →
        given.lookup slot = valueOf name arguments := by
  obtain ⟨scan, command, behind, verb, scanned, begun, read⟩ := readArguments_ok read
  obtain ⟨inner, scanned', read⟩ := bind_ok read
  obtain ⟨progress, settled, made⟩ := bind_ok read
  rw [searches] at made
  obtain ⟨rfl, made'⟩ := Given.command_search made
  refine ⟨progress.given, made', fun name slot owns absent => ?_⟩
  have heard := Grammar.lookup_of_scan owns rfl scanned' settled
  rw [Grammar.valueOf_of_scan absent (by decide) scanned begun, heard]
  rfl

/-- **No search is narrowed to its first clause.** What a command line says with the three switches of a
second clause is what its search is made up of: all three or none, wherever they stand and however they are
spelled. With all three the query has both clauses and the operator, or is an error, and in the web front
end the same goes for any operator that is not blank; one that cannot be read is an error. -/
theorem no_search_narrowed :
    (∀ (catalogUrl : Option String) (arguments : List String) (parsed : Arguments) (search : Search),
      readArguments catalogUrl arguments = .ok parsed → parsed.command = .search search →
      (valueOf "op" arguments).map Operator.read = search.operator.map .ok ∧
        valueOf "field2" arguments = search.field2 ∧ valueOf "value2" arguments = search.value2 ∧
        (search.operator = none ∧ search.field2 = none ∧ search.value2 = none ∨
          ∃ operator field2 value2, search.operator = some operator ∧ search.field2 = some field2 ∧
            search.value2 = some value2 ∧
            Joins search.kind search.field search.value operator field2 value2 search.query ∧
            ∀ clause, search.query ≠ .ok (.single clause))) ∧
    ∀ (parameters : Web.SearchParameters) (text : String), parameters.operator = some text →
      Text.isBlankText text = false →
      (∀ operator, Operator.read text = .ok operator →
          Joins parameters.kind parameters.field parameters.value operator
            (parameters.field2.getD "") (parameters.value2.getD "") parameters.query) ∧
        ((∀ operator, Operator.read text ≠ .ok operator) → ∃ error, parameters.query = .error error) ∧
        ∀ clause, parameters.query ≠ .ok (.single clause) := by
  constructor
  · intro catalogUrl arguments parsed search read searches
    obtain ⟨given, made, heard⟩ := search_of_line read searches
    obtain ⟨-, operator, field2, value2⟩ := Given.search_ok made
    rw [heard _ _ search_owns_op (by decide)] at operator
    rw [heard _ _ search_owns_field2 (by decide)] at field2
    rw [heard _ _ search_owns_value2 (by decide)] at value2
    refine ⟨operator, field2, value2, ?_⟩
    rcases Given.all_or_none made with single | ⟨joined, second, asked, first, both, all⟩
    · exact .inl single
    · have ruled := search.query_joins first both all
      exact .inr ⟨joined, second, asked, first, both, all, ruled, ruled.ne_single⟩
  · intro parameters text given named
    refine ⟨fun operator read => parameters.query_joins given read,
      fun unreadable => ⟨_, parameters.query_of_unreadable given named unreadable⟩, ?_⟩
    cases read : Operator.read text with
    | ok operator => exact (parameters.query_joins given read).ne_single
    | error error =>
      have refused := parameters.query_of_unreadable given named (by simp [read])
      simp [refused]

/-- The switches count wherever they stand around the bare arguments, also behind a switch that has no
say in the search, and an operator that names none is not taken for a search without one. -/
theorem no_search_narrowed_scattered :
    let line :=
      ["--json", "search", "--value2=Herbert", "book", "--op", " oR ", "title", "--field2", "author"]
    let search : Search := ⟨.book, "title", "", some .or, some "author", some "Herbert"⟩
    let parameters : Web.SearchParameters := ⟨.author, "name", "Austen", some "XOR", none, none⟩
    readArguments none line = .ok ⟨none, true, .search search⟩ ∧
      valueOf "field2" line = some "author" ∧ (∀ clause, search.query ≠ .ok (.single clause)) ∧
      Text.isBlankText "XOR" = false ∧ ∀ clause, parameters.query ≠ .ok (.single clause) := by
  intro line search parameters
  have read : readArguments none line = .ok ⟨none, true, .search search⟩ := by with_unfolding_all rfl
  have named : Text.isBlankText "XOR" = false := by decide
  obtain ⟨-, second, -, ⟨single, -⟩ | ⟨_, _, _, -, -, -, -, compound⟩⟩ :=
    no_search_narrowed.1 none line _ search read rfl
  · cases single
  · exact ⟨read, second, compound, named, (no_search_narrowed.2 parameters "XOR" rfl named).2.2⟩

end BookCatalog.Command
