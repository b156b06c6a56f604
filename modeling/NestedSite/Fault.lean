import NestedSite.Template.Expr
import NestedSite.Text.Quoted

/-!
# What can go wrong

Every failure of the library is a `Fault`, told by its cause; `Fault.message` words it. Where a cause has no wording of
its own here (a fragment that is no expression, a file that is no metadata), the reader of the text supplies one.
-/

namespace NestedSite

open Text

/-- Why a fragment or a template is not accepted. -/
inductive TemplateFault where
  /-- The text is no expression. -/
  | badExpression
  /-- The text after a keyword does not make a block header. -/
  | badHeader (keyword : String)
  /-- The text is no statement. -/
  | badStatement
  | severalStatements
  /-- The expression has a form that templates do not have. -/
  | foreignExpression (kind : String)
  /-- The statement has a form that templates do not have. -/
  | foreignStatement (kind : String)
  | forbiddenName (name : String)
  | forbiddenAttribute (name : String)
  | foreignOperator
  | unpackedArgument
  | unpackedEntry
  /-- Something else than names is assigned. -/
  | badTarget
  | strayEnd
  | strayElif
  | strayElse
  | unclosedBlock
  deriving Repr, DecidableEq

/-- The wording; `reason` words why a text does not parse. -/
def TemplateFault.message (reason : String) : TemplateFault → String
  | badExpression => s!"Invalid expression ({reason})"
  | badHeader keyword => s!"Invalid '{keyword}' statement ({reason})"
  | badStatement => s!"Invalid statement ({reason})"
  | severalStatements => "Expected exactly one statement"
  | foreignExpression kind => s!"Unsupported syntax '{kind}' in template expression"
  | foreignStatement kind => s!"Unsupported statement '{kind}'"
  | forbiddenName name => s!"Name '{name}' is not permitted"
  | forbiddenAttribute name => s!"Attribute '{name}' is not permitted"
  | foreignOperator => "Unsupported binary operator"
  | unpackedArgument => "Argument unpacking is not permitted"
  | unpackedEntry => "Dict unpacking is not permitted"
  | badTarget => "Only names can be assigned in templates"
  | strayEnd => "Block end without an open block"
  | strayElif => "'elif' outside of an 'if' block"
  | strayElse => "'else' outside of an 'if' or 'for' block"
  | unclosedBlock => "Unclosed block at end of template"

/-- Why an argument is refused; `label` says which. -/
inductive ArgumentFault where
  | notText (label type : String)
  | emptyText (label : String)
  | notMapping (label type : String)
  deriving Repr, DecidableEq

def ArgumentFault.message : ArgumentFault → String
  | notText label type => s!"Expected {label} to be a string, got {type}"
  | emptyText label => s!"Expected {label} to be a non-empty string"
  | notMapping label type => s!"Expected {label} to be a dict, got {type}"

/-- Why a path is no place to write to, or to read from. -/
inductive PathFault where
  | empty
  | absolute (path : String)
  /-- The path climbs above the root, or is the root. -/
  | traversal (path : String)
  /-- The path leads out of `root` on the disk. -/
  | outside (path root : String)
  | notDirectory (path : String)
  deriving Repr, DecidableEq

def PathFault.message : PathFault → String
  | empty => "Output path cannot be empty"
  | absolute path => s!"Invalid output path: '{path}'. Absolute paths not allowed."
  | traversal path => s!"Path traversal detected: '{path}'"
  | outside path root => s!"Path traversal detected: {path} is not within {root}"
  | notDirectory path => s!"Path is not a directory: {path}"

/-- Why the metadata of a directory is refused. -/
inductive MetadataFault where
  | malformed
  | notMapping
  /-- The mapping breaks `issues` rules. -/
  | invalid (issues : Nat)
  deriving Repr, DecidableEq

def MetadataFault.message (reason : String) : MetadataFault → String
  | malformed => s!"Malformed metadata ({reason})"
  | notMapping => "Metadata root must be a mapping"
  | invalid issues => s!"Invalid metadata ({issues} errors)"

/-- Why an echo group cannot be expanded. -/
inductive EchoFault where
  | noEcho (legend : String)
  | noMetadata (legend group : String)
  | missingGroup (legend group : String)
  | notList (group type : String)
  | emptyGroup (group : String)
  | notMapping (group : String) (index : Nat)
  | badLegend (group : String) (index : Nat)
  deriving Repr, DecidableEq

def EchoFault.message (reason : String) : EchoFault → String
  | noEcho legend => s!"Legend '{legend}' has no echo group"
  | noMetadata legend group => s!"Legend '{legend}' echoes '{group}' but its directory has no metadata"
  | missingGroup legend group => s!"Echo group '{group}' not found for legend '{legend}'"
  | notList group type => s!"Echo group '{group}' must be a list, got {type}"
  | emptyGroup group => s!"Echo group '{group}' is empty"
  | notMapping group index => s!"Echo group '{group}' element {index} must be a mapping"
  | badLegend group index => s!"Echo group '{group}' element {index} is not a valid legend: {reason}"

/-- Why a configuration cannot be used. -/
inductive ConfigFault where
  | missing
  | unreadable
  | malformed
  | notMapping
  | invalid (issues : Nat)
  deriving Repr, DecidableEq

def ConfigFault.message : ConfigFault → String
  | missing => "File not found"
  | unreadable => "Failed to read config file"
  | malformed => "Malformed YAML"
  | notMapping => "YAML root must be a mapping"
  | invalid issues => s!"Invalid config ({issues} errors)"

/-- How a value breaks the rule of its place. -/
inductive Defect where
  /-- A field that must be there is not. -/
  | missing
  | notText
  | emptyText
  | notList
  | notMapping
  | notRecord
  /-- The field is not known. -/
  | unknownField
  /-- A key is no text. -/
  | badKey
  /-- The value has the right type and breaks a rule of the field. -/
  | unacceptable
  /-- The value is none of those that the field admits. -/
  | notAChoice
  deriving Repr, DecidableEq

/-- A defect and its place: the keys that lead to it. -/
structure Issue where
  place : List String
  defect : Defect
  deriving Repr, DecidableEq

/-- Puts issues one level deeper. -/
def Issue.under (key : String) (issues : List Issue) : List Issue :=
  issues.map fun i => { i with place := key :: i.place }

/-- What the file system refuses. -/
inductive FileFault where
  | notFound | isDirectory | notDirectory | alreadyExists | linkLoop | nameTooLong
  deriving Repr, DecidableEq

inductive Fault where
  /-- An attribute is read where there is no value. -/
  | attributeOfNone (name : String)
  | notCallable (type : String)
  | unpacking (values names : Nat)
  /-- What is called is not to be called from templates. -/
  | forbiddenCall (name : String)
  /-- There is no rule for a form of expressions. -/
  | unsupportedElement (kind : String)
  | unsupportedStatement (kind : String)
  /-- Something else than names is assigned. -/
  | unassignable
  /-- An operation does not apply to values of these types. -/
  | wrongType
  | badValue
  | missingKey
  /-- A key that is missing cannot be written out; `why` is what comes of the attempt. -/
  | unwritableKey (why : Fault)
  | missingIndex
  | divisionByZero
  | overflow
  | missingAttribute
  | missingCodec
  | undecodable
  | unencodable
  /-- A mapping changed its size while its entries were read. -/
  | changedWhileRead
  /-- Values or templates are nested too deep. -/
  | tooDeep
  | tooLarge
  /-- The replacement of a renaming rule is malformed. -/
  | badReplacement
  /-- The text is no YAML document. -/
  | malformedYaml
  | template (fault : TemplateFault) (fragment : Option String)
  | compilation (path : String) (cause : Fault)
  | argument (fault : ArgumentFault)
  | path (fault : PathFault)
  | metadata (fault : MetadataFault) (directory : String)
  | duplicateMetadata (directory : String)
  | echo (fault : EchoFault)
  | config (fault : ConfigFault) (file : Option String)
  | invalid (issues : List Issue)
  /-- The root of a data file is no mapping. -/
  | dataRoot (file : String)
  | file (fault : FileFault)
  /-- An observer failed, with its own words. -/
  | observer (words : String)
  deriving Repr, Inhabited

/-- The wording of a fault; `reason` stands for what has no wording of its own. -/
def Fault.message (reason : String) : Fault → String
  | attributeOfNone name => s!"Cannot read attribute '{name}' of None"
  | notCallable type => s!"'{type}' object is not callable"
  | unpacking values names => s!"Cannot unpack {values} values into {names} names"
  | forbiddenCall name => s!"Calling '{name}' is not permitted"
  | unsupportedElement kind => s!"Unsupported expression element '{kind}'"
  | unsupportedStatement kind => s!"Unsupported statement '{kind}'"
  | unassignable => "Only names can be assigned in templates"
  | template fault none => fault.message reason
  | template fault (some fragment) => s!"{fault.message reason}: {quoted fragment}"
  | compilation at? cause => s!"Failed to compile template at path `{at?}`. Error: {cause.message reason}"
  | argument fault => fault.message
  | path fault => fault.message
  | metadata fault directory => s!"{fault.message reason}: {directory}"
  | duplicateMetadata directory => s!"Duplicate meta for path: {directory}"
  | echo fault => fault.message reason
  | config fault none => fault.message
  | config fault (some place) => s!"{fault.message}: {place}"
  | dataRoot place => s!"Data file root must be a mapping: {place}"
  | observer words => words
  | _ => reason

/-- The fault of a rendering that comes upon a gap. The tables of operators are looked up by operator. -/
def Template.Gap.fault : Template.Gap → Fault
  | element kind => .unsupportedElement kind
  | statement kind => .unsupportedStatement kind
  | target => .unassignable
  | unary _ | binary _ => .missingKey

/-- The wording of a fault where no reader supplies one. -/
def Fault.words (f : Fault) : String := f.message "invalid"

/-- What comes of an attempt to put a fault into words. A missing key is part of them. -/
def Fault.wording : Fault → Except Fault String
  | unwritableKey why => .error why
  | f => .ok f.words

/-- The fault that is left after an attempt to put it into words. -/
def Fault.told (f : Fault) : Fault :=
  match f.wording with
  | .ok _ => f
  | .error why => why

end NestedSite
