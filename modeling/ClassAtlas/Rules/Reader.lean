import ClassAtlas.Datum
import ClassAtlas.Rules

/-!
# Reading rules

Rules from the values of a settings file. A shape that is no rule gives `none`; whether a rule makes
sense is checked later, when its matcher is built.
-/

namespace ClassAtlas

namespace PredicateSpec

/-- The properties that take no argument. -/
def ofWord? : String → Option PredicateSpec
  | "island" => some .island
  | "orphan" => some .orphan
  | "class" => some .isClass
  | "module" => some .isModule
  | "singleton" => some .singleton
  | _ => none

/-- The properties that take a text. -/
def ofWordAndText? (word text : String) : Option PredicateSpec :=
  match word with
  | "inherits_from" => some (.inheritsFrom text)
  | "includes" => some (.includes text)
  | "extends" => some (.extendedBy text)
  | "name" => some (.named text)
  | _ => none

/-- A property is a word, or a table with one entry: the word with its text, or a word without
argument with nothing under it. An empty table counts as nothing if `lenient`. -/
def ofDatum? (lenient : Bool) : Datum → Option PredicateSpec
  | .text word => ofWord? word
  | .table [(word, .text text)] => ofWordAndText? word text
  | .table [(word, .null)] => ofWord? word
  | .table [(word, .table [])] => if lenient then ofWord? word else none
  | _ => none

/-- A property that may be missing or null. -/
def optional? (lenient : Bool) : Option Datum → Option (Option PredicateSpec)
  | none => some none
  | some .null => some none
  | some value => (ofDatum? lenient value).map some

end PredicateSpec

namespace MatcherSpec

/-- The names of the parts, in order. -/
def fields : List String := ["path", "pattern", "predicate"]

/-- A matcher from its parts. -/
def ofFields? (lenient : Bool) : List (Option Datum) → Option MatcherSpec
  | [path, pattern, predicate] =>
    match Datum.optionalText? path, Datum.optionalText? pattern,
        PredicateSpec.optional? lenient predicate with
    | some path, some pattern, some predicate => some ⟨path, pattern, predicate⟩
    | _, _, _ => none
  | _ => none

/-- A matcher is a table of its parts, or a list of them in order. -/
def ofDatum? (lenient : Bool) (value : Datum) : Option MatcherSpec :=
  (value.record? fields false).bind (ofFields? lenient)

end MatcherSpec

namespace Style

/-- An attribute from an entry of a table. -/
def ofEntry? (entry : String × Datum) : Option (String × String) :=
  entry.2.text?.map (fun text => (entry.1, text))

/-- A style is a table of texts. -/
def ofDatum? : Datum → Option Style
  | .table entries => (entries.mapM ofEntry?).map ofList
  | _ => none

end Style

namespace StyleSpec

/-- A style rule is a table: the parts of its matcher and the attributes. -/
def ofDatum? : Datum → Option StyleSpec
  | .table entries =>
    match MatcherSpec.ofDatum? true (.table entries),
        Datum.orElse Style.ofDatum? .empty (entries.lookup "attributes") with
    | some matcher, some attributes => some ⟨matcher, attributes⟩
    | _, _ => none
  | _ => none

end StyleSpec

namespace RuleSet

/-- The ignore rules of a list. -/
def ignore? (lenient : Bool) (value : Datum) : Option (List MatcherSpec) :=
  value.elements?.bind (fun elements => elements.mapM (MatcherSpec.ofDatum? lenient))

/-- The style rules of a list. -/
def style? (value : Datum) : Option (List StyleSpec) :=
  value.elements?.bind (fun elements => elements.mapM StyleSpec.ofDatum?)

/-- A rule set from its two lists, each of which may be missing. -/
def ofFields? (lenient : Bool) : List (Option Datum) → Option RuleSet
  | [ignore, style] =>
    match Datum.orElse (ignore? lenient) [] ignore, Datum.orElse style? [] style with
    | some ignore, some style => some ⟨ignore, style⟩
    | _, _ => none
  | _ => none

/-- A rule set by itself: a table of its lists, or a list of them in order. -/
def ofDatum? (value : Datum) : Option RuleSet :=
  (value.record? ["ignore", "style"] false).bind (ofFields? false)

/-- The rules among the entries of a settings file. -/
def ofEntries? (entries : List (String × Datum)) : Option RuleSet :=
  ofFields? true [entries.lookup "ignore", entries.lookup "style"]

end RuleSet

end ClassAtlas
