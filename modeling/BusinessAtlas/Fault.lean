import BusinessAtlas.Clock
import BusinessAtlas.Json.Reader
import BusinessAtlas.Json.Schema

/-!
# What can go wrong

The causes for which an operation stops, from a facts record that does not have the kind of value
it is used as, through files that cannot be read, to formats that cannot be exported. The wording
of every cause stands in `Fault.message`.
-/

namespace BusinessAtlas

/-- Why a JSON document is refused. -/
inductive DocumentFault where
  /-- The text is not JSON. -/
  | malformed (label path : String) (error : Json.ReadError) (place : Json.Place)
  /-- The bytes are not UTF-8. -/
  | encoding (label path : String)
  /-- The value does not have its shape; `shown` is how the document writes the offending part. -/
  | shape (label source : String) (violation : Json.Violation) (shown : String)
  /-- The schema asks for a kind that there is none of. -/
  | schema (label : String) (kind : Json)

/-- Why a configuration is refused. -/
inductive ConfigFault where
  /-- The text is not YAML. -/
  | malformed (path : String)
  /-- The document is of another kind than a mapping. -/
  | notMapping (path kind : String)
  /-- A setting does not have its shape. -/
  | shape (fault : DocumentFault)

/-- Why a text is no number. -/
inductive NumberFault where
  /-- It is not written like a double. -/
  | float (text : String)
  /-- It has the mark of a base and no digits. -/
  | digits (base : Nat)

/-- Why an operation stops. -/
inductive Fault where
  /-- A text operation met another value. -/
  | notText
  /-- Fields were asked of a value that is no record. -/
  | notRecord
  /-- Items were asked of a value that has none. -/
  | noItems
  /-- A field was asked by name of a text or a list. -/
  | noFields
  /-- A list or a record stood where something is identified. -/
  | notIdentifier
  /-- A value other than a text was to be joined to texts. -/
  | notJoinable
  /-- Values were to be combined that have no sum, product or quotient. -/
  | notArithmetic
  /-- Values were to be ordered that have no common order. -/
  | notOrdered
  /-- A section of the configuration is no record. -/
  | notSection
  /-- A text was to be read as a number and is none. -/
  | notNumber (fault : NumberFault)
  /-- A date was written down that there is not. -/
  | notDate (fault : DateFault)
  /-- An integer is beyond the range of doubles. -/
  | tooLarge
  /-- A relationship type that no edge stands for. -/
  | unknownRelationship (kind : String)
  /-- A node type that there is none of. -/
  | unknownNodeType (name : String)
  /-- An edge type that there is none of. -/
  | unknownEdgeType (name : String)
  /-- A node of the network that only edges mention has no label. -/
  | unlabelled
  /-- Null was to be a node of the network. -/
  | nullNode
  /-- Nothing was built yet. -/
  | nothingBuilt
  /-- A format that is declared but cannot be exported. -/
  | unsupportedFormat (name : String)
  /-- A format that there is none of. -/
  | unknownFormat (name : String)
  /-- A file is not there. -/
  | missing (label path : String)
  /-- A directory stands where a file was to be read. -/
  | directory (path : String)
  /-- A file stands where a directory is needed. -/
  | occupied (path : String)
  /-- A directory is needed behind a file. -/
  | behindFile (path : String)
  /-- The bytes of a configuration are not UTF-8. -/
  | undecodable
  | document (fault : DocumentFault)
  | config (fault : ConfigFault)

/-- The first letter of a label in upper case and the others in lower case. -/
def capitalize (label : String) : String :=
  match label.toList with
  | [] => ""
  | c :: cs => .ofList (c.toUpper :: cs.map Char.toLower)

def DocumentFault.message : DocumentFault → String
  | malformed label path error place =>
    "Invalid JSON syntax in " ++ label ++ ": " ++ path ++ "\nError at line " ++ toString place.line
      ++ ", column " ++ toString place.column ++ ": " ++ error.message
      ++ "\n\nCommon issues:\n  - Missing closing bracket/brace\n"
      ++ "  - Trailing comma in array or object\n  - Single quotes instead of double quotes"
  | encoding label path =>
    "File encoding error in " ++ label ++ ": " ++ path ++ "\nExpected UTF-8 encoding."
  | shape label source violation shown =>
    "Schema validation failed for " ++ label ++ ": " ++ source ++ "\nError at '"
      ++ violation.place ++ "': " ++ violation.message shown
      ++ "\n\nThe structure doesn't match the expected " ++ label ++ " format."
  | schema label kind =>
    "Invalid schema definition for " ++ label ++ "\nSchema error: " ++ kind.literal
      ++ " is not valid under any of the given schemas"

def ConfigFault.message : ConfigFault → String
  | malformed path => "Invalid YAML in config file " ++ path
  | notMapping path kind => "Config file " ++ path ++ " must contain a mapping, got " ++ kind
  | shape fault => fault.message

def NumberFault.message : NumberFault → String
  | float text => "could not convert string to float: " ++ Text.quoted text
  | digits base =>
    "invalid literal for int() with base " ++ toString base ++ ": " ++ Text.quoted ""

def Fault.message : Fault → String
  | notText => "a text was expected"
  | notRecord => "a record was expected"
  | noItems => "a list was expected"
  | noFields => "a record was expected to hold the field"
  | notIdentifier => "a list or a record does not identify anything"
  | notJoinable => "only texts can be joined"
  | notArithmetic => "these values have no sum, product or quotient"
  | notOrdered => "these values have no common order"
  | notSection => "a section of the configuration was expected"
  | notNumber fault => fault.message
  | notDate fault => fault.message
  | tooLarge => "the integer is too large for a double"
  | unknownRelationship kind => Text.quoted kind
  | unknownNodeType name => Text.quoted name ++ " is not a valid NodeType"
  | unknownEdgeType name => Text.quoted name ++ " is not a valid EdgeType"
  | unlabelled => Text.quoted "label"
  | nullNode => "None cannot be a node"
  | nothingBuilt => "build_graph() must be called before exporting"
  | unsupportedFormat name => "Export format '" ++ name ++ "' is not implemented"
  | unknownFormat name =>
    "Unknown export format '" ++ name ++ "'. Supported: json, cytoscape, d3"
  | missing label path =>
    capitalize label ++ " not found: " ++ path
      ++ "\nPlease ensure the file exists and the path is correct."
  | directory path => "a directory cannot be read: " ++ path
  | occupied path => "a file stands in the place of the directory: " ++ path
  | behindFile path => "no directory can stand behind a file: " ++ path
  | undecodable => "the bytes are not UTF-8"
  | document fault => fault.message
  | config fault => fault.message

end BusinessAtlas
