import CodeRubric.Proofs.Expectation.Spelling

/-! The language of rubric lines. Which inspections can be read is said by a grammar of their texts,
and what is reported of the others by the parts between their colons. -/
namespace CodeRubric

namespace Verb

theorem ofName?_eq_some_iff {text : String} {verb : Verb} :
    ofName? text = some verb ↔ verb.name = text := by
  constructor
  · intro found
    simpa using List.find?_some found
  · rintro rfl
    exact ofName?_name verb

theorem ofName?_eq_none_iff {text : String} :
    ofName? text = none ↔ ∀ verb : Verb, verb.name ≠ text := by
  constructor
  · intro missing verb same
    rw [ofName?_eq_some_iff.mpr same] at missing
    cases missing
  · intro unknown
    refine List.find?_eq_none.mpr fun verb _ named => unknown verb ?_
    simpa using named

theorem name_spelled (verb : Verb) :
    ':' ∉ verb.name.toList ∧ verb.name ≠ "Not" ∧ verb.name ≠ "HasArity" := by
  cases verb <;> decide

end Verb

namespace Text

/-- Texts put together with colons between neighbours. -/
def colonJoined (parts : List String) : String :=
  String.ofList (join ':' (parts.map String.toList))

/-- The parts of a text between its colons. -/
structure PartsOf (text : String) (parts : List String) : Prop where
  some_part : parts ≠ []
  free : ∀ part ∈ parts, ':' ∉ part.toList
  joined : text = colonJoined parts

theorem PartsOf.split {text : String} {parts : List String} (cut : PartsOf text parts) :
    Text.split ':' text.toList = parts.map String.toList := by
  rw [cut.joined, colonJoined, String.toList_ofList]
  refine split_join (by simpa using cut.some_part) ?_
  intro piece member
  obtain ⟨part, listed, rfl⟩ := List.mem_map.mp member
  exact cut.free part listed

theorem PartsOf.unique {text : String} {parts others : List String} (cut : PartsOf text parts)
    (again : PartsOf text others) : parts = others := by
  have same : parts.map String.toList = others.map String.toList := cut.split.symm.trans again.split
  exact (List.map_inj_right fun _ _ => String.toList_inj.mp).mp same

theorem notMem_of_mem_split {mark : Char} {text piece : List Char}
    (member : piece ∈ split mark text) : mark ∉ piece := by
  induction text generalizing piece with
  | nil =>
    obtain rfl : piece = [] := by simpa [split] using member
    simp
  | cons c rest ih =>
    by_cases cut : c = mark
    · rw [split, if_pos cut] at member
      rcases List.mem_cons.mp member with rfl | later
      · simp
      · exact ih later
    · rw [split, if_neg cut] at member
      cases pieces : split mark rest with
      | nil => exact absurd pieces (split_ne_nil mark rest)
      | cons first more =>
        rw [pieces] at member ih
        rcases List.mem_cons.mp member with rfl | later
        · have kept : mark ∉ first := ih List.mem_cons_self
          simpa [Ne.symm cut] using kept
        · exact ih (List.mem_cons_of_mem _ later)

theorem exists_partsOf (text : String) : ∃ parts, PartsOf text parts := by
  refine ⟨(split ':' text.toList).map String.ofList, ?_, ?_, ?_⟩
  · simpa using split_ne_nil ':' text.toList
  · intro part member
    obtain ⟨piece, listed, rfl⟩ := List.mem_map.mp member
    rw [String.toList_ofList]
    exact notMem_of_mem_split listed
  · have restored : ((split ':' text.toList).map String.ofList).map String.toList =
        split ':' text.toList := by simp [Function.comp_def]
    rw [colonJoined, restored, join_split, String.ofList_toList]

theorem partsOf_single {part : String} (free : ':' ∉ part.toList) : PartsOf part [part] where
  some_part := by simp
  free := by simpa using free
  joined := by simp [colonJoined, join]

theorem PartsOf.cons {text part : String} {parts : List String} (cut : PartsOf text parts)
    (free : ':' ∉ part.toList) : PartsOf (part ++ ":" ++ text) (part :: parts) where
  some_part := by simp
  free := List.forall_mem_cons.mpr ⟨free, cut.free⟩
  joined := by
    obtain ⟨next, more, rfl⟩ := List.exists_cons_of_ne_nil cut.some_part
    rw [cut.joined]
    apply String.toList_inj.mp
    simp [colonJoined, join]

theorem PartsOf.uncons {text part : String} {parts : List String}
    (cut : PartsOf text (part :: parts)) (some_part : parts ≠ []) :
    ∃ tail, PartsOf tail parts ∧ text = part ++ ":" ++ tail := by
  have tail : PartsOf (colonJoined parts) parts :=
    ⟨some_part, fun piece member => cut.free piece (List.mem_cons_of_mem _ member), rfl⟩
  have whole := tail.cons (cut.free part List.mem_cons_self)
  exact ⟨colonJoined parts, tail, cut.joined.trans whole.joined.symm⟩

theorem partsOf_pair {first second : String} (free : ':' ∉ first.toList)
    (free' : ':' ∉ second.toList) : PartsOf (first ++ ":" ++ second) [first, second] :=
  (partsOf_single free').cons free

end Text

open Text (PartsOf)

namespace SpecObject

theorem ofChars?_marked {name : String} (nonempty : name ≠ "") :
    ofChars? ("=" ++ name).toList = some (.named name) ∧
      ofChars? ("~" ++ name).toList = some (.like name) := by
  obtain ⟨c, rest, text⟩ := List.exists_cons_of_ne_nil (mt String.toList_eq_nil_iff.mp nonempty)
  have spelled : String.ofList (c :: rest) = name := by rw [← text, String.ofList_toList]
  constructor
  · simp [text, ofChars?, spelled]
  · simp [text, ofChars?, spelled]

end SpecObject

namespace Question

/-- The texts that are read as an arity: one or more decimal digits of a number below `2 ^ 64`. -/
def IsArity (text : String) : Prop :=
  text ≠ "" ∧ (∀ c ∈ text.toList, c.isDigit = true) ∧
    Text.decimalValue text.toList < UInt64.size

/-- An inspection without `Not:`. -/
inductive Phrase : String → Prop where
  | verb (verb : Verb) : Phrase verb.name
  | about (verb : Verb) {object : String} :
      object ≠ "" → ':' ∉ object.toList → Phrase (verb.name ++ ":" ++ object)
  | arity {digits : String} : IsArity digits → Phrase ("HasArity:" ++ digits)

inductive Grammatical : String → Prop where
  | plain {spec : String} : Phrase spec → Grammatical spec
  | negated {spec : String} : Phrase spec → Grammatical ("Not:" ++ spec)

/-- The parts of a phrase. -/
inductive Readable : List String → Prop where
  | verb (verb : Verb) : Readable [verb.name]
  | about (verb : Verb) {object : String} : object ≠ "" → Readable [verb.name, object]
  | arity {digits : String} : IsArity digits → Readable ["HasArity", digits]

/-- What is reported of `spec` by its parts, those after `Not` if that is the first. -/
inductive Reported (spec : String) : List String → SpecError → Prop where
  | empty : Reported spec [] (.malformedInspection spec)
  | many {parts : List String} :
      2 < parts.length → Reported spec parts (.malformedInspection spec)
  | arity {text : String} : ¬ IsArity text → Reported spec ["HasArity", text] (.invalidArity text)
  | verb {first : String} :
      (∀ verb : Verb, verb.name ≠ first) → Reported spec [first] (.unknownVerb first)
  | verbAbout {first object : String} : (∀ verb : Verb, verb.name ≠ first) → first ≠ "HasArity" →
      Reported spec [first, object] (.unknownVerb first)
  | object (verb : Verb) : Reported spec [verb.name, ""] (.emptyTarget spec)

def dropNot : List String → List String
  | "Not" :: parts => parts
  | parts => parts

theorem arity?_isSome_iff {text : String} : (arity? text.toList).isSome = true ↔ IsArity text := by
  simp [arity?, IsArity, and_assoc]

theorem lookup_name (verb : Verb) : lookup verb.name.toList = .ok verb := by
  simp [lookup, Verb.ofName?_name]

theorem lookup_of_unknown {text : String} (unknown : ∀ verb : Verb, verb.name ≠ text) :
    lookup text.toList = .error (.unknownVerb text) := by
  simp [lookup, Verb.ofName?_eq_none_iff.mpr unknown]

theorem exists_ofChars? {object : String} (nonempty : object ≠ "") :
    ∃ read, SpecObject.ofChars? object.toList = some read := by
  unfold SpecObject.ofChars?
  split
  · next empty => exact absurd (String.toList_eq_nil_iff.mp empty) nonempty
  all_goals exact ⟨_, rfl⟩

theorem toList_name_ne_hasArity (verb : Verb) : verb.name.toList ≠ "HasArity".toList :=
  fun same => verb.name_spelled.2.2 (String.toList_inj.mp same)

theorem queryOf_about (spec : String) (verb : Verb) {object : String} {read : SpecObject}
    (named : SpecObject.ofChars? object.toList = some read) :
    queryOf spec [verb.name.toList, object.toList] = .ok (.verb verb read) := by
  simp only [queryOf, if_neg (toList_name_ne_hasArity verb), lookup_name, named, bind, Except.bind]

theorem queryOf_arity (spec : String) {digits : String} (valid : IsArity digits) :
    ∃ query, queryOf spec ["HasArity".toList, digits.toList] = .ok query := by
  obtain ⟨count, read⟩ := Option.isSome_iff_exists.mp (arity?_isSome_iff.mpr valid)
  exact ⟨.arity count, by simp only [queryOf, if_true, read]⟩

theorem exists_queryOf_of_readable (spec : String) {parts : List String}
    (readable : Readable parts) : ∃ query, queryOf spec (parts.map String.toList) = .ok query := by
  cases readable with
  | verb verb => exact ⟨.verb verb .anyone, by simp [queryOf, lookup_name, bind, Except.bind, pure,
      Except.pure]⟩
  | about verb nonempty =>
    obtain ⟨read, named⟩ := exists_ofChars? nonempty
    exact ⟨_, queryOf_about spec verb named⟩
  | arity valid => exact queryOf_arity spec valid

theorem queryOf_of_reported {spec : String} {parts : List String} {fault : SpecError}
    (reported : Reported spec parts fault) :
    queryOf spec (parts.map String.toList) = .error fault := by
  cases reported with
  | empty => rfl
  | many long =>
    match parts, long with
    | _ :: _ :: _ :: _, _ => rfl
  | arity invalid =>
    have unread := Option.not_isSome_iff_eq_none.mp (mt arity?_isSome_iff.mp invalid)
    simp only [List.map_cons, List.map_nil, queryOf, if_true, unread, String.ofList_toList]
  | verb unknown =>
    simp [queryOf, lookup_of_unknown unknown, bind, Except.bind]
  | verbAbout unknown other =>
    have noArity := mt String.toList_inj.mp other
    simp only [List.map_cons, List.map_nil, queryOf, if_neg noArity, lookup_of_unknown unknown,
      bind, Except.bind]
  | object verb =>
    simp only [List.map_cons, List.map_nil, queryOf, if_neg (toList_name_ne_hasArity verb),
      lookup_name, bind, Except.bind]
    rfl

/-- Parts are read or reported, and so never both. -/
theorem readable_or_reported (spec : String) (parts : List String) :
    Readable parts ∨ ∃ fault, Reported spec parts fault := by
  match parts with
  | [] => exact .inr ⟨_, .empty⟩
  | _ :: _ :: _ :: _ => exact .inr ⟨_, .many (by simp)⟩
  | [first] =>
    by_cases known : ∃ verb : Verb, verb.name = first
    · obtain ⟨verb, rfl⟩ := known
      exact .inl (.verb verb)
    · exact .inr ⟨_, .verb fun verb same => known ⟨verb, same⟩⟩
  | [first, object] =>
    by_cases isArity : first = "HasArity"
    · subst isArity
      by_cases valid : IsArity object
      · exact .inl (.arity valid)
      · exact .inr ⟨_, .arity valid⟩
    · by_cases known : ∃ verb : Verb, verb.name = first
      · obtain ⟨verb, rfl⟩ := known
        by_cases empty : object = ""
        · subst empty
          exact .inr ⟨_, .object verb⟩
        · exact .inl (.about verb empty)
      · exact .inr ⟨_, .verbAbout (fun verb same => known ⟨verb, same⟩) isArity⟩

theorem queryOf_eq_error_iff {spec : String} {parts : List String} {fault : SpecError} :
    queryOf spec (parts.map String.toList) = .error fault ↔ Reported spec parts fault := by
  refine ⟨?_, queryOf_of_reported⟩
  intro failed
  rcases readable_or_reported spec parts with readable | ⟨found, reported⟩
  · obtain ⟨query, read⟩ := exists_queryOf_of_readable spec readable
    rw [read] at failed
    cases failed
  · have same := queryOf_of_reported reported
    rw [failed] at same
    cases same
    exact reported

theorem exists_queryOf_iff {spec : String} {parts : List String} :
    (∃ query, queryOf spec (parts.map String.toList) = .ok query) ↔ Readable parts := by
  refine ⟨?_, exists_queryOf_of_readable spec⟩
  rintro ⟨query, read⟩
  rcases readable_or_reported spec parts with readable | ⟨fault, reported⟩
  · exact readable
  · rw [queryOf_of_reported reported] at read
    cases read

theorem dropNot_of_head?_ne {parts : List String} (plain : parts.head? ≠ some "Not") :
    dropNot parts = parts := by
  unfold dropNot
  split
  · exact absurd rfl plain
  · rfl

theorem takeNot_map_toList (parts : List String) :
    takeNot (parts.map String.toList) =
      (decide (parts.head? = some "Not"), (dropNot parts).map String.toList) := by
  cases parts with
  | nil => rfl
  | cons part rest =>
    by_cases isNot : part = "Not"
    · subst isNot
      simp [takeNot, dropNot]
    · have kept : dropNot (part :: rest) = part :: rest :=
        dropNot_of_head?_ne (by simpa using isNot)
      have other : part.toList ≠ "Not".toList := mt String.toList_inj.mp isNot
      rw [List.map_cons, takeNot, if_neg other, kept]
      simp [isNot]

theorem parse_of_partsOf {spec : String} {parts : List String} (cut : PartsOf spec parts) :
    parse spec = (queryOf spec ((dropNot parts).map String.toList)).map
      (⟨decide (parts.head? = some "Not"), ·⟩) := by
  simp only [parse, cut.split, takeNot_map_toList]
  cases queryOf spec ((dropNot parts).map String.toList) <;> rfl

/-- A question is negated by the first part of its text and asks what the parts after it say. -/
theorem parse_eq_ok_iff {spec : String} {parts : List String} {question : Question}
    (cut : PartsOf spec parts) :
    parse spec = .ok question ↔ question.negated = decide (parts.head? = some "Not") ∧
      queryOf spec ((dropNot parts).map String.toList) = .ok question.query := by
  obtain ⟨negated, query⟩ := question
  rw [parse_of_partsOf cut]
  cases queryOf spec ((dropNot parts).map String.toList) <;> simp [Except.map, eq_comm]

theorem partsOf_of_phrase {spec : String} (phrase : Phrase spec) :
    ∃ parts, PartsOf spec parts ∧ dropNot parts = parts ∧ Readable parts := by
  cases phrase with
  | verb verb =>
    obtain ⟨free, notNot, _⟩ := verb.name_spelled
    refine ⟨_, Text.partsOf_single free, ?_, .verb verb⟩
    simp [dropNot, notNot]
  | about verb nonempty objectFree =>
    obtain ⟨free, notNot, _⟩ := verb.name_spelled
    refine ⟨_, Text.partsOf_pair free objectFree, ?_, .about verb nonempty⟩
    simp [dropNot, notNot]
  | @arity digits valid =>
    have free : ':' ∉ digits.toList := fun member => absurd (valid.2.1 _ member) (by decide)
    have keyword : ':' ∉ "HasArity".toList := by decide
    exact ⟨_, Text.partsOf_pair keyword free, rfl, .arity valid⟩

theorem phrase_of_readable {spec : String} {parts : List String} (cut : PartsOf spec parts)
    (readable : Readable parts) : Phrase spec := by
  have spelled (other : String) (again : PartsOf other parts) : spec = other :=
    cut.joined.trans again.joined.symm
  cases readable with
  | verb verb =>
    rw [spelled _ (Text.partsOf_single verb.name_spelled.1)]
    exact .verb verb
  | @about verb object nonempty =>
    have free : ':' ∉ object.toList := cut.free object (by simp)
    rw [spelled _ (Text.partsOf_pair verb.name_spelled.1 free)]
    exact .about verb nonempty free
  | @arity digits valid =>
    have free : ':' ∉ digits.toList := cut.free digits (by simp)
    have keyword : ':' ∉ "HasArity".toList := by decide
    rw [spelled _ (Text.partsOf_pair keyword free)]
    exact .arity valid

theorem grammatical_iff {spec : String} {parts : List String} (cut : PartsOf spec parts) :
    Grammatical spec ↔ Readable (dropNot parts) := by
  have keyword : ':' ∉ "Not".toList := by decide
  constructor
  · intro grammatical
    cases grammatical with
    | plain phrase =>
      obtain ⟨found, again, kept, readable⟩ := partsOf_of_phrase phrase
      rwa [cut.unique again, kept]
    | negated phrase =>
      obtain ⟨found, again, _, readable⟩ := partsOf_of_phrase phrase
      rwa [cut.unique (again.cons keyword)]
  · intro readable
    unfold dropNot at readable
    split at readable
    · next rest =>
      have some_part : rest ≠ [] := by
        rintro rfl
        cases readable
      obtain ⟨phrase, tail, rfl⟩ := cut.uncons some_part
      exact .negated (phrase_of_readable tail readable)
    · exact .plain (phrase_of_readable cut readable)

theorem exists_parse_iff {spec : String} :
    (∃ question, parse spec = .ok question) ↔ Grammatical spec := by
  obtain ⟨parts, cut⟩ := Text.exists_partsOf spec
  rw [grammatical_iff cut, ← @exists_queryOf_iff spec, parse_of_partsOf cut]
  cases queryOf spec ((dropNot parts).map String.toList) <;> simp [Except.map]

theorem parse_eq_error_iff {spec : String} {fault : SpecError} :
    parse spec = .error fault ↔
      ∃ parts, PartsOf spec parts ∧ Reported spec (dropNot parts) fault := by
  constructor
  · intro failed
    obtain ⟨parts, cut⟩ := Text.exists_partsOf spec
    refine ⟨parts, cut, queryOf_eq_error_iff.mp ?_⟩
    rw [parse_of_partsOf cut] at failed
    cases read : queryOf spec ((dropNot parts).map String.toList) <;> simp_all [Except.map]
  · rintro ⟨parts, cut, reported⟩
    rw [parse_of_partsOf cut, queryOf_of_reported reported]
    rfl

/-- A verb and what it is asked about are read as they are written. -/
theorem parse_about (verb : Verb) {spec object : String} {read : SpecObject}
    (spelled : spec = verb.name ++ ":" ++ object) (free : ':' ∉ object.toList)
    (named : SpecObject.ofChars? object.toList = some read) :
    parse spec = .ok ⟨false, .verb verb read⟩ := by
  obtain ⟨nameFree, notNot, _⟩ := verb.name_spelled
  have kept : dropNot [verb.name, object] = [verb.name, object] := by simp [dropNot, notNot]
  rw [spelled, parse_of_partsOf (Text.partsOf_pair nameFree free), kept, List.map_cons,
    List.map_cons, List.map_nil, queryOf_about _ verb named]
  simp [Except.map, notNot]

theorem parse_anyone (verb : Verb) :
    parse (verb.name ++ ":*") = .ok ⟨false, .verb verb .anyone⟩ := by
  have free : ':' ∉ "*".toList := by decide
  exact parse_about verb (String.toList_inj.mp (by simp)) free rfl

theorem parse_exactly (verb : Verb) {name : String} (nonempty : name ≠ "")
    (free : ':' ∉ name.toList) :
    parse (verb.name ++ ":=" ++ name) = .ok ⟨false, .verb verb (.named name)⟩ := by
  have objectFree : ':' ∉ ("=" ++ name).toList := by simp [free]
  exact parse_about verb (String.toList_inj.mp (by simp)) objectFree
    (SpecObject.ofChars?_marked nonempty).1

theorem parse_alike (verb : Verb) {name : String} (nonempty : name ≠ "")
    (free : ':' ∉ name.toList) :
    parse (verb.name ++ ":~" ++ name) = .ok ⟨false, .verb verb (.like name)⟩ := by
  have objectFree : ':' ∉ ("~" ++ name).toList := by simp [free]
  exact parse_about verb (String.toList_inj.mp (by simp)) objectFree
    (SpecObject.ofChars?_marked nonempty).2

end Question

namespace Scope

theorem parse_eq_error {spec : String} {fault : SpecError} (failed : parse spec = .error fault) :
    fault = .malformedScope spec := by
  unfold parse at failed
  split at failed
  · cases failed
  · exact (Except.error.inj failed).symm

end Scope

namespace Expectation

variable {config : CompilerConfig} {line : Expectation}

theorem tryCompile_eq_ok_iff {inspection : Inspection} :
    line.tryCompile config = .ok inspection ↔
      ∃ scope question, Scope.parse line.scope = .ok scope ∧
        Question.parse line.inspection = .ok question ∧
          Requirement.inspection config ⟨scope, question⟩ = inspection := by
  unfold tryCompile requirement
  cases placed : Scope.parse line.scope with
  | error fault => simp [bind, Except.bind, Except.map]
  | ok scope =>
    cases asked : Question.parse line.inspection <;>
      simp [bind, Except.bind, pure, Except.pure, Except.map]

theorem exists_tryCompile_iff :
    (∃ inspection, line.tryCompile config = .ok inspection) ↔
      (∃ scope, Scope.parse line.scope = .ok scope) ∧
        ∃ question, Question.parse line.inspection = .ok question := by
  simp only [tryCompile_eq_ok_iff]
  constructor
  · rintro ⟨_, scope, question, placed, asked, _⟩
    exact ⟨⟨scope, placed⟩, question, asked⟩
  · rintro ⟨⟨scope, placed⟩, question, asked⟩
    exact ⟨_, scope, question, placed, asked, rfl⟩

theorem tryCompile_eq_error_iff {fault : SpecError} :
    line.tryCompile config = .error fault ↔
      Scope.parse line.scope = .error fault ∨
        (∃ scope, Scope.parse line.scope = .ok scope) ∧
          Question.parse line.inspection = .error fault := by
  unfold tryCompile requirement
  cases placed : Scope.parse line.scope with
  | error fault => simp [bind, Except.bind, Except.map]
  | ok scope =>
    cases asked : Question.parse line.inspection <;>
      simp [bind, Except.bind, pure, Except.pure, Except.map]

/-- The language of rubric lines, whatever the configuration: the lines that compile are those with
a scope and a grammatical inspection, every other one has a single fault to report and is satisfied
by every tree. -/
theorem tryCompile_exact (config : CompilerConfig) (line : Expectation) :
    ((∃ inspection, line.tryCompile config = .ok inspection) ↔
      (∃ scope, Scope.parse line.scope = .ok scope) ∧ Question.Grammatical line.inspection) ∧
    (∀ fault, line.tryCompile config = .error fault ↔
      (∀ scope, Scope.parse line.scope ≠ .ok scope) ∧ fault = .malformedScope line.scope ∨
      (∃ scope, Scope.parse line.scope = .ok scope) ∧ ∃ parts, PartsOf line.inspection parts ∧
        Question.Reported line.inspection (Question.dropNot parts) fault) ∧
    (∀ fault, line.tryCompile config = .error fault → ∀ tree, line.compile config tree = true) ∧
    ∀ inspection, line.tryCompile config = .ok inspection → line.compile config = inspection := by
  refine ⟨?_, ?_, ?_, ?_⟩
  · rw [exists_tryCompile_iff, Question.exists_parse_iff]
  · intro fault
    have placed : Scope.parse line.scope = .error fault ↔
        (∀ scope, Scope.parse line.scope ≠ .ok scope) ∧ fault = .malformedScope line.scope := by
      constructor
      · intro failed
        exact ⟨by simp [failed], Scope.parse_eq_error failed⟩
      · rintro ⟨never, rfl⟩
        cases found : Scope.parse line.scope with
        | ok scope => exact absurd found (never scope)
        | error other => rw [Scope.parse_eq_error found]
    rw [tryCompile_eq_error_iff, Question.parse_eq_error_iff, placed]
  · intro fault failed tree
    rw [compile, failed]
    rfl
  · intro inspection compiled
    rw [compile, compiled]

end Expectation

end CodeRubric
