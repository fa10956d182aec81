/-
# The hash of a configuration

Every seed, page type, matcher and transition gets a label that does not depend on
its identifier: labels are refined by what an entity holds and by what refers to it
until they no longer tell more entities apart.  The hash is taken of the documents
with labels in the place of identifiers.
-/
import Mathlib
import Erabi.Configuration.Record
import Erabi.Snapshot.CanonicalHash

namespace Erabi.Configuration

open Json

/-! ## Sorting -/

/-- The text by which values are sorted. -/
def canonicalSortKey (value : Json) : List Char := value.write

/-- Values in the order of their canonical texts. -/
def sortValues (values : List Json) : List Json :=
  values.insertionSort fun a b => canonicalSortKey a ≤ canonicalSortKey b

/-- An array in that order. -/
def sortedArray (values : List Json) : Json := .array (sortValues values)

/-! ## Entities -/

/-- The kinds of entities that have identities. -/
inductive SemanticEntityKind where
  | seed | pageType | urlMatcher | transition
  deriving DecidableEq

/-- The word for a kind in labels. -/
def SemanticEntityKind.labelPrefix : SemanticEntityKind → String
  | .seed => "seed"
  | .pageType => "page_type"
  | .urlMatcher => "url_matcher"
  | .transition => "transition"

/-- An entity with its identity and its value. -/
structure SemanticEntity where
  id : Id
  kind : SemanticEntityKind
  value : Json

/-- A version taken apart into rows. -/
structure SemanticHashTemplate where
  version : Json
  seeds : List Json
  pageTypes : List Json
  urlMatchers : List Json
  transitions : List Json

/-- The kind of every known identity. -/
abbrev Kinds := List (Id × SemanticEntityKind)

/-- The label of every known identity. -/
abbrev Labels := List (Id × String)

/-- A seed as a row. -/
def Seed.row (seed : Seed) : Json := ofFields
  [("id", .string seed.id),
    ("original_url", .string seed.originalUrl),
    ("canonical_url", .string seed.canonicalUrl),
    ("enabled", ofNat seed.enabled.toNat),
    ("label", ofOption .string seed.label),
    ("entry_page_type_hint", ofOption .string seed.entryPageTypeHint)]

/-- A page type as a row. -/
def PageTypeRow.row (pageType : PageTypeRow) : Json := ofFields
  [("id", .string pageType.id),
    ("name", .string pageType.name),
    ("priority", ofInt pageType.priority),
    ("configuration", pageType.configuration.value)]

/-- A matcher as a row. -/
def UrlMatcherRow.row (matcher : UrlMatcherRow) : Json := ofFields
  [("id", .string matcher.id),
    ("page_type_id", .string matcher.pageTypeId),
    ("matcher", matcher.matcher.value)]

/-- A transition without its test evidence. -/
def transitionSemanticValue (t : DiscoveryTransition) : Json :=
  t.toJson.remove "latest_test_evidence_id"

/-- A transition as a row. -/
def DiscoveryTransition.row (t : DiscoveryTransition) : Json := ofFields
  [("id", .string t.id), ("configuration", transitionSemanticValue t)]

/-- A version without its identities and its state. -/
def CrawlerVersion.semanticValue (version : CrawlerVersion) : Json :=
  ((version.toJson.remove "id").remove "crawler_id").remove "state"

/-- A stored version taken apart. -/
def Stored.template (c : Stored) : SemanticHashTemplate where
  version := c.version.semanticValue
  seeds := c.seeds.map Seed.row
  pageTypes := c.pageTypes.map PageTypeRow.row
  urlMatchers := c.urlMatchers.map UrlMatcherRow.row
  transitions := c.transitions.map DiscoveryTransition.row

/-- The identifier in the `id` field. -/
def rowId (row : Json) : Option Id :=
  (row.get? "id").bind fun
    | .string id => some id
    | _ => none

/-- The rows and the declared identifiers without a row, ordered by identifiers. -/
def semanticEntitiesOf (kind : SemanticEntityKind) (declared : List Id) (rows : List Json) :
    List SemanticEntity :=
  let values := rows.filterMap fun row => (rowId row).map fun id => (id, row)
  let missing := (declared.filter fun id => (values.lookup id).isNone).map fun id =>
    (id, ofFields [("id", .string id)])
  (sortByKey (values ++ missing)).map fun entry => ⟨entry.1, kind, entry.2⟩

/-- The entities of a template. -/
def semanticEntities (template : SemanticHashTemplate) (version : CrawlerVersion) :
    List SemanticEntity :=
  semanticEntitiesOf .seed (version.seeds.map Seed.id) template.seeds ++
    (semanticEntitiesOf .pageType version.pageTypeIds template.pageTypes ++
      (semanticEntitiesOf .urlMatcher [] template.urlMatchers ++
        semanticEntitiesOf .transition version.transitionIds template.transitions))

/-- The kinds of the entities. -/
def knownKinds (entities : List SemanticEntity) : Kinds :=
  entities.map fun entity => (entity.id, entity.kind)

/-! ## References -/

/-- A key as a segment of a pointer. -/
def jsonPointerSegment (key : String) : String :=
  String.ofList (key.toList.flatMap fun c =>
    if c = '~' then ['~', '0'] else if c = '/' then ['~', '1'] else [c])

section References

variable (kinds : Kinds) (owner : Id)

mutual

/-- The references in a value, each one with its path. -/
def semanticReferences (path : String) : Json → List (Id × String)
  | .string s =>
      if (kinds.lookup s).isSome && !(path = "/id" && s = owner) then [(s, path)] else []
  | .array values => referencesOfValues path 0 values
  | .object fields => referencesOfFields path fields
  | .null => []
  | .bool _ => []
  | .number _ => []

/-- The references in values. -/
def referencesOfValues (path : String) (index : ℕ) : List Json → List (Id × String)
  | [] => []
  | value :: values =>
      semanticReferences (path ++ "/" ++ toString index) value ++
        referencesOfValues path (index + 1) values

/-- The references in fields. -/
def referencesOfFields (path : String) : List (String × Json) → List (Id × String)
  | [] => []
  | (key, value) :: fields =>
      semanticReferences (path ++ "/" ++ jsonPointerSegment key) value ++
        referencesOfFields path fields

end

end References

/-- What stands for an entity whose label is not known yet. -/
def kindLabel (kind : SemanticEntityKind) : String := "@" ++ kind.labelPrefix

/-- The label of an identifier of the kind. -/
def labelOf (labels : Option Labels) (id : Id) (kind : SemanticEntityKind) : String :=
  (labels.bind fun labels => labels.lookup id).getD (kindLabel kind)

/-- The references to every entity, each one with its path and the label of the entity
that holds it. -/
def incomingIncidence (entities : List SemanticEntity) (kinds : Kinds)
    (labels : Option Labels) : List (Id × Json) :=
  entities.flatMap fun entity =>
    (semanticReferences kinds entity.id "" entity.value).map fun reference =>
      (reference.1, ofFields
        [("path", .string reference.2),
          ("source", .string (labelOf labels entity.id entity.kind))])

/-- The references to one identity. -/
def incomingOf (incoming : List (Id × Json)) (id : Id) : List Json :=
  (incoming.filter fun reference => reference.1 = id).map Prod.snd

/-! ## Replacing references -/

/-- The names that references have got so far, and for every label the number of the
next one. -/
structure LocalReferences where
  names : Id → Option String
  next : String → ℕ

/-- No name given. -/
def LocalReferences.empty : LocalReferences := ⟨fun _ => none, fun _ => 0⟩

section Remap

variable (kinds : Kinds) (labels : Option Labels) (owner : Option (Id × SemanticEntityKind))

/-- A reference under its label, or under a name of its own. -/
def remapReference (references : LocalReferences) (s : String) : String × LocalReferences :=
  match owner.filter fun owner => owner.1 = s with
  | some owner => ("@self:" ++ owner.2.labelPrefix, references)
  | none =>
      match kinds.lookup s with
      | none => (s, references)
      | some kind =>
          match references.names s with
          | some name => (name, references)
          | none =>
              let label := labelOf labels s kind
              let name := label ++ "#" ++ toString (references.next label)
              (name,
                { names := Function.update references.names s (some name)
                  next := Function.update references.next label (references.next label + 1) })

/-- The value with labels in the place of identifiers; references to entities of one
label are numbered in the order of the traversal. -/
def remapSemanticReferences (value : Json) : Json :=
  (traverseStrings (remapReference kinds labels owner) .empty value).1

end Remap

/-! ## Labels -/

/-- What an entity looks like without its identity. -/
def signature (kinds : Kinds) (labels : Option Labels) (incoming : List (Id × Json))
    (entity : SemanticEntity) : List Char :=
  canonicalSortKey (ofFields
    [("incoming", sortedArray (incomingOf incoming entity.id)),
      ("kind", .string entity.kind.labelPrefix),
      ("value", remapSemanticReferences kinds labels (some (entity.id, entity.kind))
        entity.value)])

/-- The place of a signature among the different ones. -/
def signatureRank (signatures : List (List Char)) (s : List Char) : ℕ :=
  (signatures.dedup.insertionSort (· ≤ ·)).idxOf s

/-- Entities labelled by the rank of their signatures. -/
def labelsForEntities (entities : List SemanticEntity) (kinds : Kinds) (labels : Option Labels)
    (incoming : List (Id × Json)) : Labels :=
  entities.map fun entity =>
    let signatures := (entities.filter fun other => other.kind = entity.kind).map
      (signature kinds labels incoming)
    (entity.id, kindLabel entity.kind ++ ":" ++
      toString (signatureRank signatures (signature kinds labels incoming entity)))

/-- Both labellings tell the same entities apart. -/
def sameSemanticPartition (entities : List SemanticEntity) (left right : Labels) : Bool :=
  entities.all fun a => entities.all fun b =>
    decide (left.lookup a.id = left.lookup b.id) == decide (right.lookup a.id = right.lookup b.id)

/-- One refinement of the labels. -/
def refinedLabels (entities : List SemanticEntity) (kinds : Kinds) (labels : Option Labels) :
    Labels :=
  labelsForEntities entities kinds labels (incomingIncidence entities kinds labels)

/-- Refinements until the partition stays. -/
def refineLoop (entities : List SemanticEntity) (kinds : Kinds) : ℕ → Labels → Labels
  | 0, labels => labels
  | rounds + 1, labels =>
      let refined := refinedLabels entities kinds (some labels)
      if sameSemanticPartition entities labels refined then refined
      else refineLoop entities kinds rounds refined

/-- The labels that are left, with what they were made from. -/
structure SemanticCanonicalization where
  knownKinds : Kinds
  labels : Labels
  incoming : List (Id × Json)

/-- The labels of a version's entities. -/
def refineSemanticLabels (template : SemanticHashTemplate) (version : CrawlerVersion) :
    SemanticCanonicalization :=
  let entities := semanticEntities template version
  let kinds := knownKinds entities
  let labels := refineLoop entities kinds entities.length (refinedLabels entities kinds none)
  { knownKinds := kinds
    labels := labels
    incoming := incomingIncidence entities kinds (some labels) }

/-! ## The payload -/

/-- An array in canonical order; other values stay. -/
def sortArray : Json → Json
  | .array values => sortedArray values
  | value => value

/-- The collections of a version in canonical order. -/
def sortVersionCollections (version : Json) : Json :=
  (((version.modify "seeds" sortArray).modify "page_type_ids" sortArray).modify
    "transition_ids" sortArray).modify "guardrails" fun guardrails =>
      guardrails.modify "page_types" sortArray

section Payload

variable (canonicalization : SemanticCanonicalization)

/-- Rows under labels, in canonical order. -/
def remappedSortedArray (kind : SemanticEntityKind) (values : List Json) : Json :=
  sortedArray (values.map fun value =>
    remapSemanticReferences canonicalization.knownKinds (some canonicalization.labels)
      ((rowId value).map fun id => (id, kind)) value)

/-- How the labels are referred to. -/
def anonymousIncidenceProfiles : Json :=
  sortedArray (canonicalization.labels.filterMap fun label =>
    (canonicalization.knownKinds.lookup label.1).map fun kind => ofFields
      [("incoming", sortedArray (incomingOf canonicalization.incoming label.1)),
        ("kind", .string kind.labelPrefix),
        ("label", .string label.2)])

/-- The version under labels. -/
def remappedVersion (version : Json) : Json :=
  sortVersionCollections
    (remapSemanticReferences canonicalization.knownKinds (some canonicalization.labels) none
      version)

/-- What is hashed of a template. -/
def remappedSemanticPayload (template : SemanticHashTemplate) : Json := ofFields
  [("version", remappedVersion canonicalization template.version),
    ("seeds", remappedSortedArray canonicalization .seed template.seeds),
    ("page_types", remappedSortedArray canonicalization .pageType template.pageTypes),
    ("url_matchers", remappedSortedArray canonicalization .urlMatcher template.urlMatchers),
    ("transitions", remappedSortedArray canonicalization .transition template.transitions),
    ("incoming_incidence_profiles", anonymousIncidenceProfiles canonicalization)]

end Payload

namespace Stored

/-- The labels of a stored version. -/
def canonicalization (c : Stored) : SemanticCanonicalization :=
  refineSemanticLabels c.template c.version

/-- What is hashed of a stored version. -/
def semanticPayload (c : Stored) : Json :=
  remappedSemanticPayload c.canonicalization c.template

/-- The semantic hash of a stored version. -/
def semanticHash (sha256 : ByteArray → List UInt8) (c : Stored) : String :=
  Snapshot.canonicalSha256 sha256 c.semanticPayload

end Stored

end Erabi.Configuration
