/-
# Which documents a schema file can hold

A schema file holds one document. A mapping is read as a declaration, and a file without a
document, or with `null`, is the empty declaration. Everything else ought to be refused, so that
no data are validated against a schema that nobody wrote. What is refused in fact is what counts
as true: a document that is hollow, such as an empty list, an empty text, a zero or `false`, is
taken for the empty declaration too.

A refusal ends the run with its exit code before the data are looked at.
-/

import DataContract.Proofs.CommandLine.Outcome

set_option autoImplicit false

namespace DataContract

/-- A value that counts as false although it is there and is no mapping. -/
inductive Value.IsHollow : Value → Prop
  | no : IsHollow (.bool false)
  | zero : IsHollow (.int 0)
  | float {x : Binary64} : x.isZero = true → IsHollow (.float x)
  | text : IsHollow (.text "")
  | bytes : IsHollow (.bytes [])
  | list : IsHollow (.list [])
  | tuple : IsHollow (.tuple [])
  | set : IsHollow (.set [])

theorem Value.falsy_of_null_or_hollow {v : Value} (empty : v = .null ∨ v.IsHollow) :
    v.truthy = false := by
  rcases empty with rfl | hollow
  · rfl
  · cases hollow with
    | float zero => simp [truthy, zero]
    | _ => rfl

/-- Besides `null` and mappings just the hollow values count as false. -/
theorem Value.truthy_eq_false_iff {v : Value} (plain : v.entries? = none) :
    v.truthy = false ↔ v = .null ∨ v.IsHollow := by
  constructor
  · intro falsy
    cases v with
    | null => exact .inl rfl
    | bool b =>
        cases b with
        | false => exact .inr .no
        | true => cases falsy
    | int n =>
        obtain rfl : n = 0 := by simpa [truthy] using falsy
        exact .inr .zero
    | float x => exact .inr (.float (by simpa [truthy] using falsy))
    | text s =>
        obtain rfl : s = "" := by simpa [truthy] using falsy
        exact .inr .text
    | bytes content =>
        obtain rfl : content = [] := by simpa [truthy] using falsy
        exact .inr .bytes
    | list items =>
        obtain rfl : items = [] := by simpa [truthy] using falsy
        exact .inr .list
    | tuple items =>
        obtain rfl : items = [] := by simpa [truthy] using falsy
        exact .inr .tuple
    | set members =>
        obtain rfl : members = [] := by simpa [truthy] using falsy
        exact .inr .set
    | object _ | frozen _ | schema _ _ => cases plain
    | _ => cases falsy
  · exact falsy_of_null_or_hollow

/-- A mapping that counts as false has no entries. -/
theorem Value.entries_eq_nil_of_falsy {v : Value} {entries : Entries}
    (mapping : v.entries? = some entries) (falsy : v.truthy = false) : entries = [] := by
  cases v with
  | object own | frozen own =>
      cases mapping
      simpa [truthy] using falsy
  | schema id s =>
      cases mapping
      have none : s.rules = [] := by simpa [truthy] using falsy
      rw [schemaEntries, none, List.map_nil]
  | _ => cases mapping

/-- A mapping is read as a declaration, an empty one too. -/
theorem declarationOf_mapping {document : Value} (mapping : document.isMapping = true) :
    declarationOf document = Document.parse Document.defaultMetaOrder document := by
  rw [declarationOf]
  split
  · rfl
  next falsy =>
    obtain ⟨entries, own⟩ := Option.isSome_iff_exists.mp mapping
    obtain rfl := Value.entries_eq_nil_of_falsy own (Bool.not_eq_true _ ▸ falsy)
    rw [Document.parse, Document.parse, own]
    rfl

/-- What counts as false is the empty declaration. -/
theorem declarationOf_falsy {document : Value} (falsy : document.truthy = false) :
    declarationOf document = .ok [] := by
  rw [declarationOf, falsy]
  rfl

/-- What counts as true and is no mapping is refused. -/
theorem declarationOf_other {document : Value} (truthy : document.truthy = true)
    (plain : document.entries? = none) :
    declarationOf document = .error (.notAMapping document.sortName) := by
  rw [declarationOf, if_pos truthy, Document.parse, plain]

namespace CommandLine

section Loading

variable {host : Host} {files : String → Option String} {path : String}

/-- Loading the schema file goes on with its document. -/
theorem loadDeclaration_of_holds {v : Value} {st : Store} (holds : Holds host files path v st) :
    loadDeclaration host.load path (files path) =
      (declarationOf (st.plain v)).mapError .declaration := by
  obtain ⟨text, found, read⟩ := holds
  simp [loadDeclaration, loadFile, found, read, bind, Except.bind, Except.mapError]

/-- An empty declaration is compiled to a schema without rules. -/
theorem loadSchema_of_empty (loaded : loadDeclaration host.load path (files path) = .ok [])
    (o : ValidateOptions) : loadSchema host files path o = .ok ⟨[], o.nonStrict⟩ := by
  rw [loadSchema, loaded]
  cases o.nonStrict <;> rfl

theorem loadSchema_of_refused {e : LoadFault}
    (refused : loadDeclaration host.load path (files path) = .error e) (o : ValidateOptions) :
    loadSchema host files path o = .error e := by
  rw [loadSchema, refused]
  rfl

end Loading

/-- What the loading of a schema file and a validation with it do, by the document of the file:
a mapping is read as a declaration; `null` and the hollow documents are the empty declaration; all
other documents are refused, and then the validation ends with the third exit code, whatever the
data file is, and prints nothing. -/
theorem schemaDocument_loaded {host : Host} {files : String → Option String} {schema : String}
    {v : Value} {st : Store} (holds : Holds host files (resolvePath schema) v st) :
    let path := resolvePath schema
    let document := st.plain v
    (document.isMapping = true →
      loadDeclaration host.load path (files path) =
        (Document.parse Document.defaultMetaOrder document).mapError .declaration) ∧
    (document = .null ∨ document.IsHollow →
      loadDeclaration host.load path (files path) = .ok [] ∧
      ∀ o : ValidateOptions, loadSchema host files path o = .ok ⟨[], o.nonStrict⟩) ∧
    (document.isMapping = false → document ≠ .null → ¬ document.IsHollow →
      loadDeclaration host.load path (files path) =
        .error (.declaration (.notAMapping document.sortName)) ∧
      ∀ data nonStrict includeAll orderBody grouped,
        runCommand host files (.validate schema data nonStrict includeAll orderBody grouped) =
          Transcript.exit 3 [note .error ("Invalid schema " ++ path ++ ": " ++
            (SchemaError.notAMapping document.sortName).message)]) := by
  intro path document
  have loads : loadDeclaration host.load path (files path) =
      (declarationOf document).mapError .declaration :=
    loadDeclaration_of_holds holds
  refine ⟨fun mapping => ?_, fun empty => ?_, fun plain present solid => ?_⟩
  · rw [loads, declarationOf_mapping mapping]
  · have none : loadDeclaration host.load path (files path) = .ok [] := by
      rw [loads, declarationOf_falsy (Value.falsy_of_null_or_hollow empty)]
      rfl
    exact ⟨none, loadSchema_of_empty none⟩
  · have none : document.entries? = none := by
      rw [← Option.isNone_iff_eq_none, ← Option.isSome_eq_false_iff]
      exact plain
    have truthy : document.truthy = true := by
      rw [← Bool.not_eq_false, Value.truthy_eq_false_iff none, not_or]
      exact ⟨present, solid⟩
    have refused : loadDeclaration host.load path (files path) =
        .error (.declaration (.notAMapping document.sortName)) := by
      rw [loads, declarationOf_other truthy none]
      rfl
    refine ⟨refused, fun data nonStrict includeAll orderBody grouped => ?_⟩
    have unloaded := loadSchema_of_refused refused ⟨nonStrict, includeAll, orderBody, grouped⟩
    exact runValidate_of_schema_error unloaded

/-- Whether a text holds a document that is a list of the text `title` alone. -/
def holdsTitles (text : String) : Bool :=
  match Yaml.load text Store.empty with
  | .ok (.list [.text s], _) => s == "title"
  | _ => false

/-- A list of names is no declaration, so nothing is validated against it. -/
theorem schemaDocument_loaded_titles :
    ∃ st, Holds defaultHost (fun _ => some "- title\n") (resolvePath "schema.yaml")
        (.list [.text "title"]) st ∧
      (runCommand defaultHost (fun _ => some "- title\n")
        (.validate "schema.yaml" "data.yaml" false false false false)).ending = .exit 3 := by
  have read : holdsTitles "- title\n" = true := by decide +kernel
  rw [holdsTitles] at read
  split at read
  next s st loaded =>
    obtain rfl := beq_iff_eq.mp read
    have holds : Holds defaultHost (fun _ => some "- title\n") (resolvePath "schema.yaml")
        (.list [.text "title"]) st := ⟨_, rfl, loaded⟩
    obtain ⟨-, -, other⟩ := schemaDocument_loaded holds
    obtain ⟨-, ran⟩ := other rfl nofun nofun
    exact ⟨st, holds, by rw [ran]; rfl⟩
  · cases read

/-- Whether a text holds a document that is an empty list. -/
def holdsEmptyList (text : String) : Bool :=
  match Yaml.load text Store.empty with
  | .ok (.list [], _) => true
  | _ => false

/-- An empty list is no mapping, and yet it is loaded as the empty declaration. -/
theorem emptyList_declares_nothing :
    (∃ st, Yaml.load "[]" Store.empty = .ok (.list [], st)) ∧
      loadDeclaration Yaml.load "schema.yaml" (some "[]") = .ok [] := by
  have read : holdsEmptyList "[]" = true := by decide +kernel
  rw [holdsEmptyList] at read
  split at read
  next st loaded =>
    refine ⟨⟨st, loaded⟩, ?_⟩
    have holds : Holds defaultHost (fun _ => some "[]") "schema.yaml" (.list []) st :=
      ⟨_, rfl, loaded⟩
    exact (loadDeclaration_of_holds holds).trans (by rw [declarationOf_falsy rfl]; rfl)
  · cases read

end CommandLine

end DataContract
