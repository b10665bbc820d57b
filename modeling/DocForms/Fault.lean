import DocForms.Json.Error

/-! Why operations fail: the refusals that the library words itself, each with the code, the message
and the request field that answers carry, and the misuse of a value that an operation is not
defined for. -/
namespace DocForms

/-- A bound on the rows of a repeatable group. -/
inductive RowBound where
  | least | most
deriving DecidableEq, Repr

namespace RowBound

/-- The name of the bound in requests. -/
def name : RowBound → String
  | .least => "minRepeats"
  | .most => "maxRepeats"

/-- The smallest value that the bound may have. -/
def lowest : RowBound → Int
  | .least => 0
  | .most => 1

end RowBound

/-- A reason to refuse a request. -/
inductive Refusal where
  -- document types
  | typeNameMissing
  | badCode (code : String)
  | codeTaken (code : String)
  | badStatus (status : String)
  | unknownType (id : String)
  | unknownTarget (id : String)
  -- fields
  | badFieldName (name : String)
  | fieldLabelMissing
  | fieldNameTaken (name : String)
  | unknownField (id : String)
  | unknownKind (kind : String) (field : Option String) (kinds : String)
  | fieldOrderIncomplete
  -- groups
  | badGroupName (name : String)
  | groupLabelMissing
  | groupNameTaken (name : String)
  | unknownGroup (id : String)
  | groupOutside (id : String)
  | boundNotInteger (bound : RowBound)
  | boundTooLow (bound : RowBound)
  | boundsInverted (least most : Int)
  | groupOrderIncomplete
  -- constraints
  | optionsNotJson (field : Option String) (defect : Json.Defect)
  | choiceMissing (field : Option String) (entry : String)
  | choiceMalformed (field : Option String) (entry : String)
  | optionsNotList (field : Option String)
  | linkOptionsMalformed (field : Option String) (problem : String)
  | rulesNotJson (field : Option String) (defect : Json.Defect)
  | rulesMalformed (field : Option String) (problem : String)
  | patternMalformed (field : Option String)
  | boundsCrossed (field : Option String)
  | lengthsCrossed (field : Option String)
  -- templates
  | templateMalformed (problem : String)
  | noTemplate (typeId : String)
  | noFields (code : String)
  -- values
  | notUngrouped (field : String)
  | notMember (field group : String)
  | noSuchGroup (group : String)
  | groupShape (group : String) (repeatable : Bool)
  | rowsExpected (group : String)
  | rowExpected (group : String)
  | noSuchRow (group row : String) (count : Nat)
  -- signers
  | signersNotList
  | signerNotObject
  | signerWithoutUser
  | signerOrderNotInteger
  | signerTwice (user : String)
  | signerUnknown (user : String)
  | signerOrderIncomplete
  -- catalog and submission
  | catalog (problem : String) (status : Option Nat) (body : Option String)
  | valuesInvalid (errors : List (String × String))
  -- definition files
  | definitionMalformed
  | definitionEmpty
  | definitionNotMapping
  | targetCodeUnknown (field code : String)
  | definitions (problems : List String)
  -- requests
  | bodyNotObject
  | valuesNotObject
  | documentTypeMissing
  | targetTypeMissing
  | templateNotContent
deriving DecidableEq, Repr

namespace Refusal

/-- The name of a field in a message, also when there is none. -/
def named (field : Option String) : String := "'" ++ field.getD "None" ++ "'"

/-- What may stand in the names of fields and groups. -/
def nameRule : String :=
  ": must start with a lowercase letter and contain only lowercase letters, digits and underscores"

/-- The wording of a refusal. -/
def message : Refusal → String
  | .typeNameMissing => "Document type name is required"
  | .badCode code => "Invalid code '" ++ code ++ "': use uppercase letters, digits, '_' and '-'"
  | .codeTaken code => "A document type with code '" ++ code ++ "' already exists"
  | .badStatus status => "Invalid status '" ++ status ++ "'"
  | .unknownType id => "Unknown document type: " ++ id
  | .unknownTarget id => "Unknown document type: " ++ id
  | .badFieldName name => "Invalid field name '" ++ name ++ "'" ++ nameRule
  | .fieldLabelMissing => "Field label is required"
  | .fieldNameTaken name => "A field named '" ++ name ++ "' already exists"
  | .unknownField id => "Unknown field: " ++ id
  | .unknownKind kind field kinds => "Unknown field type '" ++ kind ++ "' for field " ++
      named field ++ ". Available types: " ++ kinds
  | .fieldOrderIncomplete => "Field order must list every field of the group exactly once"
  | .badGroupName name => "Invalid group name '" ++ name ++ "'" ++ nameRule
  | .groupLabelMissing => "Group label is required"
  | .groupNameTaken name => "A group named '" ++ name ++ "' already exists"
  | .unknownGroup id => "Group " ++ id ++ " does not exist on this document type"
  | .groupOutside id => "Group " ++ id ++ " does not exist on this document type"
  | .boundNotInteger b => b.name ++ " must be an integer"
  | .boundTooLow b => b.name ++ " must be >= " ++ toString b.lowest
  | .boundsInverted least most => "minRepeats (" ++ toString least ++
      ") must not exceed maxRepeats (" ++ toString most ++ ")"
  | .groupOrderIncomplete =>
      "Group order must list every group of the document type exactly once"
  | .optionsNotJson field d => "Options for field " ++ named field ++ " is not valid JSON: " ++
      d.message
  | .choiceMissing field entry => "Invalid option " ++ entry ++ " for field " ++ named field
  | .choiceMalformed field entry => "Invalid option " ++ entry ++ " for field " ++ named field ++
      ": expected a string or an object with a 'value'"
  | .optionsNotList field => "Options for select field " ++ named field ++ " must be a JSON array"
  | .linkOptionsMalformed field p => "Invalid link options for field " ++ named field ++ ": " ++ p
  | .rulesNotJson field d => "Validation rules for field " ++ named field ++
      " is not valid JSON: " ++ d.message
  | .rulesMalformed field p => "Invalid validation rules for field " ++ named field ++ ": " ++ p
  | .patternMalformed field => "Invalid pattern for field " ++ named field
  | .boundsCrossed field => "Validation rules for field " ++ named field ++ " have min > max"
  | .lengthsCrossed field => "Validation rules for field " ++ named field ++
      " have minLength > maxLength"
  | .templateMalformed p => "Invalid template payload: " ++ p
  | .noTemplate typeId => "Document type " ++ typeId ++ " has no template"
  | .noFields code => "Document type " ++ code ++
      " has no fields; define fields before creating a template"
  | .notUngrouped field => "'" ++ field ++ "' is not an ungrouped field"
  | .notMember field group => "'" ++ field ++ "' is not a field of group '" ++ group ++ "'"
  | .noSuchGroup group => "Unknown group '" ++ group ++ "'"
  | .groupShape group repeatable =>
      "Group '" ++ group ++ "' is " ++ (if repeatable then "repeatable" else "simple")
  | .rowsExpected group => "Group '" ++ group ++ "' is repeatable and expects a list of objects"
  | .rowExpected group => "Group '" ++ group ++ "' expects an object"
  | .noSuchRow group row count => "Row " ++ row ++ " does not exist in group '" ++ group ++ "' (" ++
      toString count ++ " row(s))"
  | .signersNotList => "signers must be a list"
  | .signerNotObject => "Every signer must be an object"
  | .signerWithoutUser => "Every signer needs a userId"
  | .signerOrderNotInteger => "Signer order must be an integer"
  | .signerTwice user => "User " ++ user ++ " is already a signer"
  | .signerUnknown user => "User " ++ user ++ " is not a signer"
  | .signerOrderIncomplete => "Signer order must list every signer exactly once"
  | .catalog problem _ _ => problem
  | .valuesInvalid _ => "Document values are invalid"
  | .definitionMalformed => "YAML syntax error"
  | .definitionEmpty => "Empty document type definition"
  | .definitionNotMapping => "A document type definition must be a mapping"
  | .targetCodeUnknown field code => "Field '" ++ field ++ "' targets unknown document type '" ++
      code ++ "'"
  | .definitions problems => "Document type configuration errors:\n" ++
      "\n".intercalate (problems.map ("  - " ++ ·))
  | .bodyNotObject => "Request body must be a JSON object"
  | .valuesNotObject => "values must be a JSON object"
  | .documentTypeMissing => "documentTypeId is required"
  | .targetTypeMissing => "targetDocumentTypeId is required"
  | .templateNotContent => "template must be a string or an object"

/-- The code that answers name a refusal with. -/
def code : Refusal → String
  | .typeNameMissing | .badStatus _ | .fieldLabelMissing | .groupLabelMissing | .noFields _
  | .signersNotList | .signerNotObject | .signerWithoutUser | .signerOrderNotInteger
  | .signerUnknown _ | .signerOrderIncomplete | .bodyNotObject | .valuesNotObject
  | .documentTypeMissing | .targetTypeMissing | .templateNotContent => "SchemaDefinitionError"
  | .badCode _ | .badFieldName _ | .badGroupName _ => "InvalidNamePatternError"
  | .codeTaken _ | .fieldNameTaken _ | .groupNameTaken _ | .signerTwice _ => "DuplicateNameError"
  | .unknownType _ | .unknownTarget _ => "DocumentTypeNotFoundError"
  | .unknownField _ | .notUngrouped _ | .notMember .. => "FieldNotFoundError"
  | .unknownGroup _ | .groupOutside _ | .noSuchGroup _ => "GroupNotFoundError"
  | .noTemplate _ => "TemplateNotFoundError"
  | .boundNotInteger _ | .boundTooLow _ | .boundsInverted .. => "InvalidRepeatBoundsError"
  | .unknownKind .. | .fieldOrderIncomplete | .groupOrderIncomplete | .definitionMalformed
  | .definitionEmpty | .definitionNotMapping | .targetCodeUnknown ..
  | .definitions _ => "ConfigurationError"
  | .optionsNotJson .. | .choiceMissing .. | .choiceMalformed .. | .optionsNotList _
  | .linkOptionsMalformed .. => "OptionsParseError"
  | .rulesNotJson .. | .rulesMalformed .. | .patternMalformed _ | .boundsCrossed _
  | .lengthsCrossed _ => "ValidationRulesParseError"
  | .templateMalformed _ => "TemplatePayloadError"
  | .groupShape .. | .rowsExpected _ | .rowExpected _ => "ShapeError"
  | .noSuchRow .. => "RowIndexOutOfRangeError"
  | .catalog .. => "CatalogAPIError"
  | .valuesInvalid _ => "SubmissionValidationError"

/-- The part of the request that a refusal is about, if it names one. -/
def field? : Refusal → Option String
  | .typeNameMissing | .badFieldName _ | .fieldNameTaken _ | .badGroupName _
  | .groupNameTaken _ => some "name"
  | .badCode _ | .codeTaken _ => some "code"
  | .badStatus _ => some "status"
  | .fieldLabelMissing | .groupLabelMissing => some "label"
  | .unknownGroup _ => some "documentFieldGroupId"
  | .boundNotInteger b | .boundTooLow b => some b.name
  | .boundsInverted .. => some RowBound.most.name
  | .unknownTarget _ | .targetTypeMissing => some "targetDocumentTypeId"
  | .documentTypeMissing => some "documentTypeId"
  | .valuesNotObject => some "values"
  | .templateNotContent => some "template"
  | .signersNotList | .signerNotObject | .signerWithoutUser | .signerOrderNotInteger
  | .signerTwice _ | .signerUnknown _ | .signerOrderIncomplete => some "signers"
  | .optionsNotJson f _ | .choiceMissing f _ | .choiceMalformed f _ | .optionsNotList f
  | .linkOptionsMalformed f _ | .rulesNotJson f _ | .rulesMalformed f _ | .patternMalformed f
  | .boundsCrossed f | .lengthsCrossed f => f
  | _ => none

/-- Whether a refusal is about a malformed options payload. -/
def isOptions (r : Refusal) : Bool := r.code == "OptionsParseError"

/-- Whether a refusal is about a malformed validation rules payload. -/
def isRules (r : Refusal) : Bool := r.code == "ValidationRulesParseError"

/-- Whether a refusal says that something asked for does not exist. -/
def isNotFound : Refusal → Bool
  | .unknownType _ | .unknownTarget _ | .unknownField _ | .notUngrouped _ | .notMember ..
  | .unknownGroup _ | .groupOutside _ | .noSuchGroup _ | .noTemplate _ => true
  | _ => false

end Refusal

/-- How a value is used that an operation is not defined for. -/
inductive Misuse where
  /-- The value has no such part or ability. -/
  | member
  /-- The value is of a kind that the operation does not take. -/
  | operand
  /-- The value is of the right kind but its content cannot be taken. -/
  | content
  /-- A record lacks a key. -/
  | key
  /-- A number is too large. -/
  | magnitude
  /-- A position does not exist. -/
  | index
deriving DecidableEq, Repr

/-- Why an operation failed. -/
inductive Fault where
  | refused (r : Refusal)
  | misuse (m : Misuse)
deriving DecidableEq, Repr

/-- Fails with a refusal. -/
def refuse {α : Type} (r : Refusal) : Except Fault α := .error (.refused r)

/-- Fails with a misuse. -/
def misuse {α : Type} (m : Misuse) : Except Fault α := .error (.misuse m)

end DocForms
