/-
# Where a message names its property

Every message of the library refers to its property once, after words that end with the mark
which the prefixing of nested messages looks for, and in which the mark does not come before.
So prefixing a message is writing it for a property of a longer name, whatever the name and the
rest of the message are.
-/

import DataContract.Validation.Checks

set_option autoImplicit false

namespace DataContract

@[simp] theorem Value.shown_text (s : String) : (Value.text s).shown = s := rfl

/-- Words that end with the property mark, and have no such mark before. -/
def LeadsToProperty (words : String) : Prop :=
  ∀ insertion rest, insertAfterFirst propertyMark insertion (words.toList ++ rest) =
    words.toList ++ (insertion ++ rest)

theorem leadsToProperty_property : LeadsToProperty "Property " := fun _ _ => rfl

theorem leadsToProperty_missing : LeadsToProperty "Missing required property " := fun _ _ => rfl

theorem leadsToProperty_choice : LeadsToProperty "Value of property " := fun _ _ => rfl

theorem leadsToProperty_pattern : LeadsToProperty "Regex validation failed for property " :=
  fun _ _ => rfl

theorem leadsToProperty_item : LeadsToProperty "An item in array of property " := fun _ _ => rfl

/-- A key before the name of a property. -/
def underKey (key : Value) (name : String) : String := key.shown ++ "." ++ name

/-- A message, as it depends on the name of its property, refers to the property once. -/
def RefersOnce (message : String → String) : Prop :=
  ∃ words rest, LeadsToProperty words ∧ ∀ name, message name = words ++ name ++ rest

/-- Prefixing a message is writing it for the longer name. -/
theorem RefersOnce.prefixed {message : String → String} (refers : RefersOnce message) (key : Value)
    (name : String) : prefixMessage (message name) key = message (underKey key name) := by
  obtain ⟨words, rest, leads, own⟩ := refers
  have cut := leads (key.shown.toList ++ ['.']) (name.toList ++ rest.toList)
  rw [prefixMessage, own, own, ← String.toList_inj, String.toList_ofList]
  simpa [underKey, List.append_assoc] using cut

/-- Messages, as they depend on the name of their property, follow the name: to prefix them is to
write them for the longer name. -/
def FollowName (messages : String → List String) : Prop :=
  ∀ key name, (messages name).map (prefixMessage · key) = messages (underKey key name)

namespace FollowName

theorem singleton {message : String → String} (refers : RefersOnce message) :
    FollowName fun name => [message name] := fun key name =>
  congrArg (fun text => [text]) (refers.prefixed key name)

theorem failureIf {message : String → String} (refers : RefersOnce message) (condition : Bool) :
    FollowName fun name => failureIf condition (message name) := by
  cases condition with
  | false => exact fun _ _ => rfl
  | true => exact singleton refers

theorem append {messages more : String → List String} (first : FollowName messages)
    (later : FollowName more) : FollowName fun name => messages name ++ more name := by
  intro key name
  rw [List.map_append, first key name, later key name]

end FollowName

/-! ## The messages -/

/-- A message that begins with the property, and goes on with words that do not depend on it. -/
theorem refersOnce_property {message : String → String} (rest : String)
    (own : ∀ name, message name = "Property " ++ name ++ rest) : RefersOnce message :=
  ⟨_, rest, leadsToProperty_property, own⟩

theorem refersOnce_mismatch (v : Value) (expected : String) :
    RefersOnce fun name => mismatchText (.text name) v expected :=
  refersOnce_property (" is " ++ v.category ++ ", expected " ++ expected) fun name => by
    simp only [mismatchText, Value.shown_text, String.append_assoc]

theorem refersOnce_undeclared : RefersOnce fun name => undeclaredText (.text name) :=
  refersOnce_property " not valid in schema" fun name => by
    simp only [undeclaredText, Value.shown_text]

theorem refersOnce_missing : RefersOnce fun name => missingText (.text name) :=
  ⟨_, "", leadsToProperty_missing, fun _ => String.append_empty.symm⟩

theorem refersOnce_item (item : TypeSpec) : RefersOnce fun name => itemText (.text name) item := by
  have goesOn (more label : String) : RefersOnce fun name =>
      "An item in array of property " ++ name ++ " is not valid" ++ more ++ label :=
    ⟨_, " is not valid" ++ (more ++ label), leadsToProperty_item, fun name => by
      simp only [String.append_assoc]⟩
  cases item with
  | nested s => exact ⟨_, " is not valid", leadsToProperty_item, fun _ => rfl⟩
  | scalar kind => exact goesOn ". All items must be of type " kind.label
  | array item => exact goesOn ". All items must be of type " "array"

namespace Rule

variable (r : Rule)

theorem followName_text (s : String) : FollowName fun name => r.textFailures (.text name) s := by
  refine .append (.append (.append ?_ ?_) ?_) ?_ <;> refine .failureIf ?_ _
  · exact ⟨_, _, leadsToProperty_choice, fun _ => rfl⟩
  · exact ⟨_, "", leadsToProperty_pattern, fun name => by
      simp only [Value.shown_text, String.append_empty]⟩
  · exact refersOnce_property (" must contain at least " ++ boundText r.min ++ " characters")
      fun name => by
        simp only [Value.shown_text, String.append_assoc]
  · exact refersOnce_property (" must contain less than " ++ boundText r.max ++ " characters")
      fun name => by
        simp only [Value.shown_text, String.append_assoc]

theorem followName_number (n : Number) :
    FollowName fun name => r.numberFailures (.text name) n := by
  refine .append ?_ ?_ <;> refine .failureIf ?_ _
  · exact refersOnce_property (" must be greater than " ++ boundText r.min)
      fun name => by
        simp only [Value.shown_text, String.append_assoc]
  · exact refersOnce_property (" must be less than " ++ boundText r.max)
      fun name => by
        simp only [Value.shown_text, String.append_assoc]

theorem followName_length (count : Nat) :
    FollowName fun name => r.lengthFailures (.text name) count := by
  refine .append ?_ ?_ <;> refine .failureIf ?_ _
  · exact refersOnce_property (" must contain at least " ++ boundText r.min ++ " elements")
      fun name => by
        simp only [Value.shown_text, String.append_assoc]
  · exact refersOnce_property (" must contain no more than " ++ boundText r.max ++ " elements")
      fun name => by
        simp only [Value.shown_text, String.append_assoc]

/-- What is wrong with a value of a scalar kind follows the name, and fails with it or not. -/
theorem scalarFailures_underKey (kind : Scalar) (v : Value) (key : Value) (name : String) :
    r.scalarFailures (.text (underKey key name)) kind v =
      (r.scalarFailures (.text name) kind v).map (List.map (prefixMessage · key)) := by
  have mismatch := refersOnce_mismatch v kind.label
  have misfit {message : String → String} (refers : RefersOnce message) :
      (kind.fits v).map (fun ok => failureIf (!ok) (message (underKey key name))) =
        ((kind.fits v).map fun ok => failureIf (!ok) (message name)).map
          (List.map (prefixMessage · key)) := by
    cases kind.fits v with
    | error f => rfl
    | ok b => exact congrArg Except.ok (FollowName.failureIf refers (!b) key name).symm
  cases kind with
  | text =>
      rw [scalarFailures.eq_def, scalarFailures.eq_def]
      cases v with
      | text s =>
          dsimp only
          split
          · rfl
          · exact congrArg Except.ok (r.followName_text s key name).symm
      | _ => exact congrArg Except.ok (FollowName.singleton mismatch key name).symm
  | number =>
      rw [scalarFailures.eq_def, scalarFailures.eq_def]
      dsimp only
      cases v.number? with
      | some n => exact congrArg Except.ok (r.followName_number n key name).symm
      | none => exact congrArg Except.ok (FollowName.singleton mismatch key name).symm
  | boolean | object | function => exact misfit mismatch
  | date => exact misfit (refersOnce_property " is not a valid date" fun _ => rfl)
  | uuid version =>
      have refers : RefersOnce fun name => "Property " ++ (Value.text name).shown ++
          " is not a valid " ++ (Scalar.uuid version).label :=
        refersOnce_property (" is not a valid " ++ (Scalar.uuid version).label) fun name => by
          simp only [Value.shown_text, String.append_assoc]
      exact misfit refers

/-- Messages depend on a key by what it shows. -/
theorem scalarFailures_shown (key : Value) (kind : Scalar) (v : Value) :
    r.scalarFailures (.text key.shown) kind v = r.scalarFailures key kind v := by
  rfl

end Rule

end DataContract
