/-!
# Error reports

A report is what a caller sees of a failure: a message, its kind, fields in the order in which they
were attached, and the report it was caused by. Its text is the message, then a line for each field,
then the text of the cause.
-/

namespace KernelDispatch

inductive ErrorKind
  /-- The function or query was configured in a way that cannot run. -/
  | config
  /-- The kernel ran and reported a failure status. -/
  | execution
  /-- The compiled kernel broke its calling contract. -/
  | contractViolation
  /-- An internal invariant was violated. -/
  | internal
  | other
deriving DecidableEq, Repr, Inhabited

namespace ErrorKind

def unclassified : ErrorKind := .other

/-- Fatal errors mean a broken invariant: the invocation is to be abandoned, not retried. -/
def isFatal : ErrorKind → Bool
  | .contractViolation => true
  | .internal => true
  | _ => false

def label : ErrorKind → String
  | .config => "config"
  | .execution => "execution"
  | .contractViolation => "contract violation"
  | .internal => "internal"
  | .other => "other"

end ErrorKind

/-- An error as it is reported. -/
inductive Report
  | mk (message : String) (kind : ErrorKind) (fields : List (String × String))
      (cause : Option Report)

namespace Report

def new (message : String) : Report := mk message .unclassified [] none

def message : Report → String
  | mk message _ _ _ => message

def kind : Report → ErrorKind
  | mk _ kind _ _ => kind

def fields : Report → List (String × String)
  | mk _ _ fields _ => fields

def cause : Report → Option Report
  | mk _ _ _ cause => cause

def withKind (k : ErrorKind) : Report → Report
  | mk message _ fields cause => mk message k fields cause

def withField (key value : String) : Report → Report
  | mk message kind fields cause => mk message kind (fields ++ [(key, value)]) cause

def wrapping (message : String) (source : Report) : Report :=
  mk message .unclassified [] (some source)

/-- An error in how the function or query was configured. -/
def config (message : String) : Report := (new message).withKind .config

def internal (message : String) : Report := (new message).withKind .internal

def contractViolation (message : String) : Report := (new message).withKind .contractViolation

def missing (what : String) : Report := internal s!"Missing required value: {what}"

def notImplemented (what : String) : Report := config s!"Not yet implemented: {what}"

/-- Fatal by its own kind; the cause does not matter. -/
def isFatal (r : Report) : Bool := r.kind.isFatal

def field? (r : Report) (key : String) : Option String :=
  (r.fields.find? (·.1 == key)).map (·.2)

def fieldLines (fields : List (String × String)) : String :=
  String.join (fields.map fun (key, value) => s!"\n{key}: {value}")

def text : Report → String
  | mk message _ fields none => message ++ fieldLines fields
  | mk message _ fields (some cause) =>
    message ++ fieldLines fields ++ "\nError source: " ++ cause.text

/-- The errors behind a report, the nearest first. -/
def causes : Report → List Report
  | mk _ _ _ none => []
  | mk _ _ _ (some cause) => cause :: cause.causes

def head : Report → String
  | mk message _ fields _ => message ++ fieldLines fields

/-- The text shows the causes one after the other, the nearest first. -/
theorem text_eq_causes : ∀ r : Report,
    r.text = r.head ++ String.join (r.causes.map fun c => "\nError source: " ++ c.head)
  | mk message kind fields none => by simp [text, head, causes]
  | mk message kind fields (some cause) => by
    rw [text, causes, text_eq_causes cause, List.map_cons, String.join_cons]
    simp only [head, String.append_assoc]

/-- The report with the values of one key replaced throughout. -/
def mapField (key : String) (f : String → String) : Report → Report
  | mk message kind fields none =>
    mk message kind (fields.map fun (k, v) => if k == key then (k, f v) else (k, v)) none
  | mk message kind fields (some cause) =>
    mk message kind (fields.map fun (k, v) => if k == key then (k, f v) else (k, v))
      (some (cause.mapField key f))

@[simp] theorem kind_withField (r : Report) (key value : String) :
    (r.withField key value).kind = r.kind := by cases r; rfl

@[simp] theorem kind_withKind (r : Report) (k : ErrorKind) : (r.withKind k).kind = k := by
  cases r; rfl

@[simp] theorem message_withField (r : Report) (key value : String) :
    (r.withField key value).message = r.message := by cases r; rfl

@[simp] theorem fields_withField (r : Report) (key value : String) :
    (r.withField key value).fields = r.fields ++ [(key, value)] := by cases r; rfl

end Report

end KernelDispatch
