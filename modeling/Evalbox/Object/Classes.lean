import Evalbox.Object.Value

/-!
# The classes of the language

Every class that the language brings along has a fixed place on the heap, which is its place in
`builtinClasses`. Each is listed with the class right above it.
-/

namespace Evalbox

/-- The classes of the language and those of this library, each with the one above it. -/
def builtinClasses : List (String × String) := [
  ("object", ""), ("type", "object"), ("int", "object"), ("bool", "int"), ("float", "object"),
  ("complex", "object"), ("str", "object"), ("bytes", "object"), ("bytearray", "object"),
  ("list", "object"), ("tuple", "object"), ("dict", "object"), ("set", "object"),
  ("frozenset", "object"), ("range", "object"), ("slice", "object"), ("NoneType", "object"),
  ("ellipsis", "object"), ("NotImplementedType", "object"), ("function", "object"),
  ("builtin_function_or_method", "object"), ("method", "object"), ("module", "object"),
  ("generator", "object"), ("coroutine", "object"), ("async_generator", "object"),
  ("code", "object"), ("property", "object"), ("staticmethod", "object"), ("classmethod", "object"),
  ("super", "object"), ("enumerate", "object"), ("zip", "object"), ("map", "object"),
  ("filter", "object"), ("reversed", "object"), ("memoryview", "object"),
  ("list_iterator", "object"), ("list_reverseiterator", "object"), ("tuple_iterator", "object"),
  ("str_ascii_iterator", "object"), ("str_iterator", "object"), ("bytes_iterator", "object"),
  ("range_iterator", "object"), ("set_iterator", "object"), ("dict_keyiterator", "object"),
  ("dict_valueiterator", "object"), ("dict_itemiterator", "object"), ("dict_keys", "object"),
  ("dict_values", "object"), ("dict_items", "object"), ("callable_iterator", "object"),
  ("iterator", "object"), ("generic_alias", "object"), ("TextIOWrapper", "object"),
  ("BufferedReader", "object"), ("BufferedWriter", "object"), ("BufferedRandom", "object"),
  ("ThreadRoutedStream", "object"), ("Thread", "object"), ("traceback", "object"),
  ("Quitter", "object"), ("_Printer", "object"), ("_Helper", "object"), ("GenericAlias", "object"),
  ("UnionType", "object"), ("wrapper_descriptor", "object"), ("method_descriptor", "object"),
  ("BaseException", "object"), ("Exception", "BaseException"), ("GeneratorExit", "BaseException"),
  ("KeyboardInterrupt", "BaseException"), ("SystemExit", "BaseException"),
  ("BaseExceptionGroup", "BaseException"), ("ExceptionGroup", "Exception"),
  ("ArithmeticError", "Exception"), ("AssertionError", "Exception"), ("AttributeError", "Exception"),
  ("BufferError", "Exception"), ("EOFError", "Exception"), ("ImportError", "Exception"),
  ("LookupError", "Exception"), ("MemoryError", "Exception"), ("NameError", "Exception"),
  ("OSError", "Exception"), ("ReferenceError", "Exception"), ("RuntimeError", "Exception"),
  ("StopAsyncIteration", "Exception"), ("StopIteration", "Exception"), ("SyntaxError", "Exception"),
  ("SystemError", "Exception"), ("TypeError", "Exception"), ("ValueError", "Exception"),
  ("Warning", "Exception"), ("FloatingPointError", "ArithmeticError"),
  ("OverflowError", "ArithmeticError"), ("ZeroDivisionError", "ArithmeticError"),
  ("BytesWarning", "Warning"), ("DeprecationWarning", "Warning"), ("EncodingWarning", "Warning"),
  ("FutureWarning", "Warning"), ("ImportWarning", "Warning"),
  ("PendingDeprecationWarning", "Warning"), ("ResourceWarning", "Warning"),
  ("RuntimeWarning", "Warning"), ("SyntaxWarning", "Warning"), ("UnicodeWarning", "Warning"),
  ("UserWarning", "Warning"), ("BlockingIOError", "OSError"), ("ChildProcessError", "OSError"),
  ("ConnectionError", "OSError"), ("BrokenPipeError", "ConnectionError"),
  ("ConnectionAbortedError", "ConnectionError"), ("ConnectionRefusedError", "ConnectionError"),
  ("ConnectionResetError", "ConnectionError"), ("FileExistsError", "OSError"),
  ("FileNotFoundError", "OSError"), ("InterruptedError", "OSError"),
  ("IsADirectoryError", "OSError"), ("NotADirectoryError", "OSError"),
  ("PermissionError", "OSError"), ("ProcessLookupError", "OSError"), ("TimeoutError", "OSError"),
  ("IndentationError", "SyntaxError"), ("TabError", "IndentationError"),
  ("IndexError", "LookupError"), ("KeyError", "LookupError"),
  ("ModuleNotFoundError", "ImportError"), ("NotImplementedError", "RuntimeError"),
  ("RecursionError", "RuntimeError"), ("UnboundLocalError", "NameError"),
  ("UnicodeError", "ValueError"), ("UnicodeDecodeError", "UnicodeError"),
  ("UnicodeEncodeError", "UnicodeError"), ("UnicodeTranslateError", "UnicodeError"),
  ("JSONDecodeError", "ValueError"), ("TOMLDecodeError", "ValueError"),
  ("CancelledError", "Exception"), ("UnsupportedOperation", "OSError"),
  ("PolicyViolation", "PermissionError"), ("ResultTypeError", "TypeError"),
  ("WorkerCancelled", "BaseException")]

/-- The place of a class of the language. -/
def classRef (name : String) : Ref := builtinClasses.findIdx (·.1 = name)

/-- A class with those above it, itself first. The fuel bounds how many there are. -/
def lineageOf : Nat → String → List Ref
  | 0, _ => []
  | fuel + 1, name =>
    match builtinClasses.lookup name with
    | none => []
    | some base => classRef name :: lineageOf fuel base

/-- Whether a class of the language is another one, or below it. -/
def isBelow (name base : String) : Bool := (lineageOf builtinClasses.length name).contains (classRef base)

/-- The object of a class of the language. -/
def builtinClass (name base : String) : Obj :=
  .cls ⟨name, name, "builtins", if base = "" then [] else [classRef base],
    lineageOf builtinClasses.length name, []⟩

/-- Names that builtins have beside the names of classes and functions. -/
def builtinAliases : List (String × String) := [("EnvironmentError", "OSError"), ("IOError", "OSError")]

/-- The functions among the builtins. -/
def builtinFunctions : List String := [
  "__build_class__", "abs", "aiter", "all", "anext", "any", "ascii", "bin", "breakpoint", "callable",
  "chr", "compile", "delattr", "dir", "divmod", "eval", "exec", "format", "getattr", "globals",
  "hasattr", "hash", "hex", "id", "input", "isinstance", "issubclass", "iter", "len", "locals", "max",
  "min", "next", "oct", "open", "ord", "pow", "print", "repr", "round", "setattr", "sorted", "sum",
  "vars"]

/-- The classes among the builtins. -/
def builtinClassNames : List String := [
  "object", "type", "int", "bool", "float", "complex", "str", "bytes", "bytearray", "list", "tuple",
  "dict", "set", "frozenset", "range", "slice", "property", "staticmethod", "classmethod", "super",
  "enumerate", "zip", "map", "filter", "reversed", "memoryview"]

/-- The exception classes among the builtins: all up to the last one of the language. -/
def builtinExceptions : List String :=
  ((builtinClasses.map (·.1)).dropWhile (· ≠ "BaseException")).takeWhile (· ≠ "JSONDecodeError")

/-- Objects that the host puts among the builtins. -/
def siteObjects : List (String × String) := [
  ("quit", "Quitter"), ("exit", "Quitter"), ("copyright", "_Printer"), ("credits", "_Printer"),
  ("license", "_Printer"), ("help", "_Helper")]

end Evalbox
