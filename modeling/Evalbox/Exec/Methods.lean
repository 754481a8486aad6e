import Evalbox.Exec.Raise
import Evalbox.Text.Dotted

/-!
# Methods of the language's own types

Which methods the types of the language have, and how many arguments each of them takes. Operators count
as methods of the types that have them, and some methods belong to every object.
-/

/-!
## How many arguments

An `Arity` is how many arguments a function of the language takes by position, and in which words it
says so. Functions of exactly one argument, of a range of numbers and those that take their arguments
apart by themselves each have words of their own.
-/

namespace Evalbox

/-- The letter by which more than one is told from one. -/
def plural (n : Nat) : String := if n = 1 then "" else "s"

/-- How many arguments a function takes. Only one that is `free` takes arguments by name. -/
inductive Arity where
  /-- one, and it says so -/
  | one
  | zero
  /-- at least and at most so many -/
  | between (least most : Nat)
  /-- the same, in the words of functions that take their arguments apart by themselves -/
  | parsed (least most : Nat)
  | any
  | free
  deriving DecidableEq, Repr, Inhabited

namespace Arity

def arguments (n : Nat) : String := toString n ++ " argument" ++ plural n

/-- Whether so many arguments are taken. -/
def takes (a : Arity) (given : Nat) : Bool :=
  match a with
  | one => given = 1
  | zero => given = 0
  | between least most | parsed least most => least ≤ given && given ≤ most
  | any | free => true

/-- The bound that so many arguments break, in words. -/
def bound (least most given : Nat) (same : String) : String :=
  (if least = most then same else if given < least then "at least " else "at most ") ++
    arguments (if given < least then least else most)

/-- Why a function cannot be called with so many arguments. Only some say where they come from. -/
def fault? (a : Arity) (name : String) (given : Nat) : Option String :=
  if a.takes given then none
  else
    let were := " (" ++ toString given ++ " given)"
    match a with
    | one => some (name ++ "() takes exactly one argument" ++ were)
    | zero => some (name ++ "() takes no arguments" ++ were)
    | between least most =>
      some (Dotted.last name ++ " expected " ++ bound least most given "" ++ ", got " ++ toString given)
    | parsed least most => some (Dotted.last name ++ "() takes " ++ bound least most given "exactly " ++ were)
    | any | free => none

theorem fault?_eq_none {a : Arity} {name : String} {given : Nat} (h : a.takes given = true) :
    a.fault? name given = none := by
  simp [fault?, h]

end Arity

end Evalbox

namespace Evalbox

/-- The methods that texts and bytes share. -/
def sharedTextMethods : List (String × Arity) := [
  ("capitalize", .zero), ("center", .between 1 2), ("count", .parsed 1 3), ("endswith", .parsed 1 3),
  ("expandtabs", .free), ("find", .parsed 1 3), ("index", .parsed 1 3), ("isalnum", .zero), ("isalpha", .zero),
  ("isascii", .zero), ("isdigit", .zero), ("islower", .zero), ("isspace", .zero), ("istitle", .zero),
  ("isupper", .zero), ("join", .one), ("ljust", .between 1 2), ("lower", .zero), ("lstrip", .between 0 1),
  ("partition", .one), ("removeprefix", .one), ("removesuffix", .one), ("replace", .between 2 3),
  ("rfind", .parsed 1 3), ("rindex", .parsed 1 3), ("rjust", .between 1 2), ("rpartition", .one), ("rsplit", .free),
  ("rstrip", .between 0 1), ("split", .free), ("splitlines", .free), ("startswith", .parsed 1 3),
  ("strip", .between 0 1), ("swapcase", .zero), ("title", .zero), ("upper", .zero), ("zfill", .one)]

/-- The methods by which a set is compared with others or made from them. -/
def sharedSetMethods : List (String × Arity) := [
  ("copy", .zero), ("union", .any), ("intersection", .any), ("difference", .any), ("symmetric_difference", .one),
  ("issubset", .one), ("issuperset", .one), ("isdisjoint", .one)]

/-- The methods of open files. -/
def fileMethods : List (String × Arity) := [
  ("read", .between 0 1), ("readline", .between 0 1), ("readlines", .between 0 1), ("write", .one),
  ("writelines", .one), ("close", .zero), ("flush", .zero), ("readable", .zero), ("writable", .zero),
  ("seekable", .zero), ("isatty", .zero), ("fileno", .zero)]

/-- The methods of the language's own types. -/
def typeMethods : List (String × List (String × Arity)) := [
  ("str", sharedTextMethods ++ [("casefold", .zero), ("encode", .free), ("format", .free), ("format_map", .one),
    ("isdecimal", .zero), ("isidentifier", .zero), ("isnumeric", .zero), ("isprintable", .zero),
    ("maketrans", .between 1 3), ("translate", .one)]),
  ("bytes", sharedTextMethods ++ [("decode", .free), ("fromhex", .one), ("hex", .free),
    ("maketrans", .between 2 2), ("translate", .free)]),
  ("list", [("append", .one), ("extend", .one), ("insert", .between 2 2), ("remove", .one), ("pop", .between 0 1),
    ("index", .between 1 3), ("count", .one), ("sort", .free), ("reverse", .zero), ("copy", .zero),
    ("clear", .zero)]),
  ("tuple", [("index", .between 1 3), ("count", .one)]),
  ("dict", [("keys", .zero), ("values", .zero), ("items", .zero), ("get", .between 1 2), ("pop", .between 1 2),
    ("popitem", .zero), ("update", .free), ("setdefault", .between 1 2), ("copy", .zero), ("clear", .zero),
    ("fromkeys", .between 1 2)]),
  ("set", sharedSetMethods ++ [("add", .one), ("remove", .one), ("discard", .one), ("pop", .zero), ("clear", .zero),
    ("update", .any), ("intersection_update", .any), ("difference_update", .any),
    ("symmetric_difference_update", .one)]),
  ("frozenset", sharedSetMethods),
  ("int", [("bit_length", .zero), ("bit_count", .zero), ("conjugate", .zero), ("to_bytes", .free),
    ("from_bytes", .free), ("as_integer_ratio", .zero)]),
  ("float", [("is_integer", .zero), ("conjugate", .zero), ("as_integer_ratio", .zero), ("hex", .zero)]),
  ("complex", [("conjugate", .zero)]),
  ("range", [("index", .one), ("count", .one)]),
  ("generator", [("send", .one), ("throw", .between 1 3), ("close", .zero)]),
  ("coroutine", [("send", .one), ("throw", .between 1 3), ("close", .zero)]),
  ("TextIOWrapper", fileMethods), ("BufferedReader", fileMethods), ("BufferedWriter", fileMethods),
  ("BufferedRandom", fileMethods),
  ("ThreadRoutedStream", [("write", .free), ("flush", .free), ("isatty", .free), ("writable", .free),
    ("readable", .free), ("seekable", .free)]),
  ("Thread", [("start", .free), ("join", .free), ("is_alive", .free), ("run", .free)]),
  ("property", [("getter", .one), ("setter", .one), ("deleter", .one)]),
  ("BaseException", [("with_traceback", .one), ("add_note", .one)])]

/-- The methods that belong to a type itself and not to its values. -/
def makerMethods : List (String × List String) := [
  ("dict", ["fromkeys"]), ("str", ["maketrans"]), ("bytes", ["fromhex", "maketrans"]), ("int", ["from_bytes"])]

/-- Methods that every object has, and methods by which operators are known. -/
def operatorMethods : List String := [
  "__init__", "__repr__", "__str__", "__eq__", "__ne__", "__hash__", "__format__", "__setattr__",
  "__getattribute__", "__delattr__", "__init_subclass__", "__new__", "__dir__", "__reduce__",
  "__sizeof__"]

/-- Operators as methods of the types that have them. -/
def specialMethods : List (String × List String) := [
  ("__len__", ["str", "bytes", "list", "tuple", "dict", "set", "frozenset", "range"]),
  ("__getitem__", ["str", "bytes", "list", "tuple", "dict", "range"]),
  ("__setitem__", ["list", "dict"]), ("__delitem__", ["list", "dict"]),
  ("__contains__", ["str", "bytes", "list", "tuple", "dict", "set", "frozenset", "range"]),
  ("__iter__", ["str", "bytes", "list", "tuple", "dict", "set", "frozenset", "range", "generator",
    "list_iterator", "tuple_iterator", "enumerate", "zip", "map", "filter"]),
  ("__next__", ["generator", "list_iterator", "tuple_iterator", "enumerate", "zip", "map", "filter"]),
  ("__call__", ["function", "method", "type", "builtin_function_or_method"]),
  ("__enter__", ["TextIOWrapper", "BufferedReader", "BufferedWriter", "BufferedRandom"]),
  ("__exit__", ["TextIOWrapper", "BufferedReader", "BufferedWriter", "BufferedRandom"]),
  ("__add__", ["int", "float", "str", "list", "tuple", "bytes"]), ("__mul__", ["int", "float"]),
  ("__sub__", ["int", "float"]), ("__bool__", ["int", "float"]), ("__int__", ["int", "float"]),
  ("__float__", ["int", "float"]), ("__abs__", ["int", "float"]), ("__neg__", ["int", "float"]),
  ("__lt__", ["int", "float", "str", "list", "tuple"]), ("__gt__", ["int", "float", "str", "list", "tuple"])]

/-- How many arguments a method of a type takes, if the type has it. -/
def methodArity? (type name : String) : Option Arity := (typeMethods.lookup type).bind (·.lookup name)

/-- Whether a method belongs to a type itself. -/
def isMaker (type name : String) : Bool := ((makerMethods.lookup type).getD []).contains name

namespace Heap

/-- The type of the language, at a class or above it, that has a method. -/
def methodHome? (h : Heap) (cls : Ref) (name : String) : Option String :=
  (((h.classInfo cls).lineage.filter (· < builtinClasses.length)).map h.className).find? fun t =>
    (methodArity? t name).isSome || ((specialMethods.lookup name).getD []).contains t ||
      (t = "object" && operatorMethods.contains name)

end Heap

end Evalbox
