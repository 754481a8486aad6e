/-!
# Modules of the host

The modules that the host offers to snippets besides those on the classpath: its standard library.
-/

namespace Evalbox.Host

/-- Top-level modules. -/
def modules : List String := [
   "__future__", "_abc", "_aix_support", "_ast", "_asyncio", "_bisect", "_blake2",
   "_bootsubprocess", "_bz2", "_codecs", "_codecs_cn", "_codecs_hk", "_codecs_iso2022",
   "_codecs_jp", "_codecs_kr", "_codecs_tw", "_collections", "_collections_abc",
   "_compat_pickle", "_compression", "_contextvars", "_crypt", "_csv", "_ctypes", "_curses",
   "_curses_panel", "_datetime", "_dbm", "_decimal", "_elementtree", "_frozen_importlib",
   "_frozen_importlib_external", "_functools", "_gdbm", "_hashlib", "_heapq", "_imp", "_io",
   "_json", "_locale", "_lsprof", "_lzma", "_markupbase", "_md5", "_multibytecodec",
   "_multiprocessing", "_opcode", "_operator", "_osx_support", "_pickle", "_posixshmem",
   "_posixsubprocess", "_py_abc", "_pydecimal", "_pyio", "_queue", "_random", "_sha1",
   "_sha256", "_sha3", "_sha512", "_signal", "_sitebuiltins", "_socket", "_sqlite3", "_sre",
   "_ssl", "_stat", "_statistics", "_string", "_strptime", "_struct", "_symtable", "_thread",
   "_threading_local", "_tkinter", "_tokenize", "_tracemalloc", "_typing", "_uuid", "_warnings",
   "_weakref", "_weakrefset", "_zoneinfo", "abc", "aifc", "antigravity", "argparse", "array",
   "ast", "asynchat", "asyncio", "asyncore", "atexit", "audioop", "base64", "bdb", "binascii",
   "bisect", "builtins", "bz2", "cProfile", "calendar", "cgi", "cgitb", "chunk", "cmath", "cmd",
   "code", "codecs", "codeop", "collections", "colorsys", "compileall", "concurrent",
   "configparser", "contextlib", "contextvars", "copy", "copyreg", "crypt", "csv", "ctypes",
   "curses", "dataclasses", "datetime", "dbm", "decimal", "difflib", "dis", "distutils",
   "doctest", "email", "encodings", "ensurepip", "enum", "errno", "faulthandler", "fcntl",
   "filecmp", "fileinput", "fnmatch", "fractions", "ftplib", "functools", "gc", "genericpath",
   "getopt", "getpass", "gettext", "glob", "graphlib", "grp", "gzip", "hashlib", "heapq",
   "hmac", "html", "http", "idlelib", "imaplib", "imghdr", "imp", "importlib", "inspect", "io",
   "ipaddress", "itertools", "json", "keyword", "lib2to3", "linecache", "locale", "logging",
   "lzma", "mailbox", "mailcap", "marshal", "math", "mimetypes", "mmap", "modulefinder",
   "msilib", "multiprocessing", "netrc", "nis", "nntplib", "ntpath", "nturl2path", "numbers",
   "opcode", "operator", "optparse", "os", "ossaudiodev", "pathlib", "pdb", "pickle",
   "pickletools", "pipes", "pkgutil", "platform", "plistlib", "poplib", "posix", "posixpath",
   "pprint", "profile", "pstats", "pty", "pwd", "py_compile", "pyclbr", "pydoc", "pydoc_data",
   "pyexpat", "queue", "quopri", "random", "re", "readline", "reprlib", "resource",
   "rlcompleter", "runpy", "sched", "secrets", "select", "selectors", "shelve", "shlex",
   "shutil", "signal", "site", "smtpd", "smtplib", "sndhdr", "socket", "socketserver", "spwd",
   "sqlite3", "sre_compile", "sre_constants", "sre_parse", "ssl", "stat", "statistics",
   "string", "stringprep", "struct", "subprocess", "sunau", "symtable", "sys", "sysconfig",
   "syslog", "tabnanny", "tarfile", "telnetlib", "tempfile", "termios", "textwrap", "this",
   "threading", "time", "timeit", "tkinter", "token", "tokenize", "tomllib", "trace",
   "traceback", "tracemalloc", "tty", "turtle", "turtledemo", "types", "typing", "unicodedata",
   "unittest", "urllib", "uu", "uuid", "venv", "warnings", "wave", "weakref", "webbrowser",
   "wsgiref", "xdrlib", "xml", "xmlrpc", "zipapp", "zipfile", "zipimport", "zlib", "zoneinfo"]

/-- The top-level modules that hold others. -/
def packages : List String := [
   "asyncio", "collections", "concurrent", "ctypes", "curses", "dbm", "email", "encodings",
   "ensurepip", "html", "http", "idlelib", "importlib", "json", "lib2to3", "logging",
   "multiprocessing", "pydoc_data", "re", "sqlite3", "tkinter", "tomllib", "turtledemo",
   "unittest", "urllib", "venv", "wsgiref", "xml", "xmlrpc", "zoneinfo", "msilib"]

/-- Modules inside packages. -/
def submodules : List String := [
   "asyncio.base_events", "asyncio.base_futures", "asyncio.base_subprocess",
   "asyncio.base_tasks", "asyncio.constants", "asyncio.coroutines", "asyncio.events",
   "asyncio.exceptions", "asyncio.format_helpers", "asyncio.futures", "asyncio.locks",
   "asyncio.log", "asyncio.mixins", "asyncio.proactor_events", "asyncio.protocols",
   "asyncio.queues", "asyncio.runners", "asyncio.selector_events", "asyncio.sslproto",
   "asyncio.staggered", "asyncio.streams", "asyncio.subprocess", "asyncio.taskgroups",
   "asyncio.tasks", "asyncio.threads", "asyncio.timeouts", "asyncio.transports",
   "asyncio.trsock", "asyncio.unix_events", "asyncio.windows_events", "asyncio.windows_utils",
   "collections.abc", "concurrent.futures", "concurrent.futures._base",
   "concurrent.futures.process", "concurrent.futures.thread", "ctypes._aix", "ctypes._endian",
   "ctypes.macholib", "ctypes.macholib.dyld", "ctypes.macholib.dylib",
   "ctypes.macholib.framework", "ctypes.util", "ctypes.wintypes", "curses.ascii",
   "curses.has_key", "curses.panel", "curses.textpad", "dbm.dumb", "dbm.gnu", "dbm.ndbm",
   "email._encoded_words", "email._header_value_parser", "email._parseaddr",
   "email._policybase", "email.base64mime", "email.charset", "email.contentmanager",
   "email.encoders", "email.errors", "email.feedparser", "email.generator", "email.header",
   "email.headerregistry", "email.iterators", "email.message", "email.mime",
   "email.mime.application", "email.mime.audio", "email.mime.base", "email.mime.image",
   "email.mime.message", "email.mime.multipart", "email.mime.nonmultipart", "email.mime.text",
   "email.parser", "email.policy", "email.quoprimime", "email.utils", "encodings.utf_8",
   "html.entities", "html.parser", "http.client", "http.cookiejar", "http.cookies",
   "http.server", "importlib._abc", "importlib._bootstrap", "importlib._bootstrap_external",
   "importlib.abc", "importlib.machinery", "importlib.metadata", "importlib.metadata._adapters",
   "importlib.metadata._collections", "importlib.metadata._functools",
   "importlib.metadata._itertools", "importlib.metadata._meta", "importlib.metadata._text",
   "importlib.readers", "importlib.resources", "importlib.resources._adapters",
   "importlib.resources._common", "importlib.resources._itertools",
   "importlib.resources._legacy", "importlib.resources.abc", "importlib.resources.readers",
   "importlib.resources.simple", "importlib.simple", "importlib.util", "json.decoder",
   "json.encoder", "json.scanner", "json.tool", "logging.config", "logging.handlers",
   "multiprocessing.connection", "multiprocessing.context", "multiprocessing.dummy",
   "multiprocessing.dummy.connection", "multiprocessing.forkserver", "multiprocessing.heap",
   "multiprocessing.managers", "multiprocessing.pool", "multiprocessing.popen_fork",
   "multiprocessing.popen_forkserver", "multiprocessing.popen_spawn_posix",
   "multiprocessing.popen_spawn_win32", "multiprocessing.process", "multiprocessing.queues",
   "multiprocessing.reduction", "multiprocessing.resource_sharer",
   "multiprocessing.resource_tracker", "multiprocessing.shared_memory",
   "multiprocessing.sharedctypes", "multiprocessing.spawn", "multiprocessing.synchronize",
   "multiprocessing.util", "os.path", "re._casefix", "re._compiler", "re._constants",
   "re._parser", "sqlite3.dbapi2", "sqlite3.dump", "tkinter.colorchooser",
   "tkinter.commondialog", "tkinter.constants", "tkinter.dialog", "tkinter.dnd",
   "tkinter.filedialog", "tkinter.font", "tkinter.messagebox", "tkinter.scrolledtext",
   "tkinter.simpledialog", "tkinter.tix", "tkinter.ttk", "tomllib._parser", "tomllib._re",
   "tomllib._types", "unittest._log", "unittest.async_case", "unittest.case", "unittest.loader",
   "unittest.main", "unittest.mock", "unittest.result", "unittest.runner", "unittest.signals",
   "unittest.suite", "unittest.util", "urllib.error", "urllib.parse", "urllib.request",
   "urllib.response", "urllib.robotparser", "wsgiref.handlers", "wsgiref.headers",
   "wsgiref.simple_server", "wsgiref.types", "wsgiref.util", "wsgiref.validate", "xml.dom",
   "xml.dom.NodeFilter", "xml.dom.domreg", "xml.dom.expatbuilder", "xml.dom.minicompat",
   "xml.dom.minidom", "xml.dom.pulldom", "xml.dom.xmlbuilder", "xml.etree",
   "xml.etree.ElementInclude", "xml.etree.ElementPath", "xml.etree.ElementTree",
   "xml.etree.cElementTree", "xml.parsers", "xml.parsers.expat", "xml.sax",
   "xml.sax._exceptions", "xml.sax.expatreader", "xml.sax.handler", "xml.sax.saxutils",
   "xml.sax.xmlreader", "xmlrpc.client", "xmlrpc.server", "zoneinfo._common",
   "zoneinfo._tzpath", "zoneinfo._zoneinfo"]

/-- Whether the host has a module of this dotted name. -/
def offers (name : String) : Bool :=
  modules.contains name || submodules.contains name || name = "__main__"

/-- Whether a module of the host can hold others. -/
def isPackage (name : String) : Bool :=
  packages.contains name || submodules.any fun m => m.startsWith (name ++ ".")

end Evalbox.Host
