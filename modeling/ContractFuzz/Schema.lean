import ContractFuzz.Abi.Selector
import ContractFuzz.Calldata.Arguments
import ContractFuzz.Execution.Frame
import ContractFuzz.Log
import ContractFuzz.Sorted.Map
import ContractFuzz.Text.Front

namespace ContractFuzz

/-- The member shapes of each struct, in memory order. -/
abbrev StructTable := SortedMap String (List Calldata.Shape)

/-- The entry points that are never called, whatever the user asks for. -/
def alwaysBlacklisted : List String := ["constructor", "__default__", "__l1_default__"]

inductive CallableKind where
  | mutating
  | property
  | messageHandler
  deriving DecidableEq, Repr, Inhabited

/-- A function that a campaign may call. -/
structure Callable where
  name : String
  arguments : List Calldata.Shape
  kind : CallableKind
  deriving Inhabited

def CallableKind.entryPoint : CallableKind → EntryPoint
  | .messageHandler => .l1Handler
  | .mutating => .external
  | .property => .external

def Callable.entryPoint (c : Callable) : EntryPoint := c.kind.entryPoint

/-- A declaration with a type that cannot be read. -/
structure MalformedType where
  item : String
  cause : Calldata.TypeError
  deriving DecidableEq, Repr

/-- What to look for in an interface. -/
structure SchemaOptions where
  propertyPrefix : String
  blacklist : SortedSet String
  deriving Inhabited

namespace SchemaOptions

def isBlacklisted (options : SchemaOptions) (name : String) : Bool :=
  alwaysBlacklisted.contains name || options.blacklist.contains name

/-- Whether a name marks a property. -/
def marksProperty (options : SchemaOptions) (name : String) : Bool :=
  Text.startsWith name options.propertyPrefix

/-- Whether a function may be called: it is not declared as a view or the like, and its name is
not blacklisted. -/
def allowsCall (options : SchemaOptions) (f : Abi.Function) : Bool :=
  f.stateMutability.isNone && !options.isBlacklisted f.name

end SchemaOptions

/-- A property is a view without inputs that returns one felt. -/
def Abi.Function.isProperty (f : Abi.Function) : Bool :=
  f.inputs.isEmpty && f.isView && (f.outputs.map Abi.Member.typeText == ["felt"])

/-- What an entry of the interface is to a campaign. -/
inductive EntryRole where
  | property (f : Abi.Function)
  /-- Named like a property without being one. -/
  | misnamed (f : Abi.Function)
  | callable (f : Abi.Function) (kind : CallableKind)
  | irrelevant

def SchemaOptions.role (options : SchemaOptions) : Abi.Entry → EntryRole
  | .function f =>
      if options.marksProperty f.name then
        if f.isProperty then .property f else .misnamed f
      else if options.allowsCall f then .callable f .mutating
      else .irrelevant
  | .l1Handler f => if options.allowsCall f then .callable f .messageHandler else .irrelevant
  | _ => .irrelevant

structure Schema where
  /-- Functions to call and message handlers, in the order of the interface. -/
  functions : List Callable
  /-- Properties, in the order of the interface. -/
  properties : List Callable
  structs : StructTable
  /-- The names of events by their selectors. -/
  events : SortedMap Felt String
  deriving Inhabited

namespace Schema

def empty : Schema := ⟨[], [], .empty, .empty⟩

def memberShapes (s : Abi.Struct) : Except MalformedType (List Calldata.Shape) :=
  match s.orderedMembers.mapM fun m => Calldata.Shape.parse m.typeText with
  | .ok shapes => .ok shapes
  | .error cause => .error ⟨s.name, cause⟩

/-- Add the struct or event that an entry declares. A later struct of one local name replaces an
earlier one. -/
def registerEntry (schema : Schema) : Abi.Entry → Except MalformedType Schema
  | .struct s =>
      match memberShapes s with
      | .ok shapes => .ok { schema with structs := schema.structs.insert s.localName shapes }
      | .error e => .error e
  | .event e =>
      .ok { schema with events := schema.events.insert (Abi.selectorOf e.name) e.name }
  | _ => .ok schema

/-- Add the structs and events of an interface. -/
def register (schema : Schema) : List Abi.Entry → Except MalformedType Schema
  | [] => .ok schema
  | entry :: rest =>
      match schema.registerEntry entry with
      | .ok schema => schema.register rest
      | .error e => .error e

/-- Add the structs and events of several interfaces, one after another. -/
def registerAll (schema : Schema) : List (List Abi.Entry) → Except MalformedType Schema
  | [] => .ok schema
  | abi :: rest =>
      match schema.register abi with
      | .ok schema => schema.registerAll rest
      | .error e => .error e

/-- The function to call, its inputs lowered to shapes. -/
def callableOf (f : Abi.Function) (kind : CallableKind) : Except MalformedType Callable :=
  match Calldata.parseArguments f.inputs with
  | .ok arguments => .ok ⟨f.name, arguments, kind⟩
  | .error cause => .error ⟨f.name, cause⟩

def misnamedWarning : LogRecord :=
  Log.warn ("function has the property prefix but is not a view taking no arguments and " ++
    "returning one felt; it won't be used as a property")

/-- Add the functions and properties of an interface, warning of functions that only have the
name of a property. -/
def survey (options : SchemaOptions) (schema : Schema) :
    List Abi.Entry → Except MalformedType Schema × Log
  | [] => (.ok schema, [])
  | entry :: rest =>
      match options.role entry with
      | .property f =>
          let found : Callable := ⟨f.name, [], .property⟩
          survey options { schema with properties := schema.properties ++ [found] } rest
      | .misnamed _ =>
          let (result, log) := survey options schema rest
          (result, misnamedWarning :: log)
      | .callable f kind =>
          match callableOf f kind with
          | .ok found =>
              survey options { schema with functions := schema.functions ++ [found] } rest
          | .error e => (.error e, [])
      | .irrelevant => survey options schema rest

/-- The schema of a target. The structs and events of declared contracts count too, since the
target may pass them along. -/
def discover (target : List Abi.Entry) (declared : List (List Abi.Entry))
    (options : SchemaOptions) : Except MalformedType Schema × Log :=
  match empty.registerAll (target :: declared) with
  | .ok schema => schema.survey options target
  | .error e => (.error e, [])

def eventName? (schema : Schema) (selector : Felt) : Option String := schema.events.get? selector

def propertyNames (schema : Schema) : List String := schema.properties.map Callable.name

end Schema

end ContractFuzz
