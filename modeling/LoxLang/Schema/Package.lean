/-! Go packages: the names that they are used by in a file. A package of the standard library has the
name that its path ends in; for any other one a name is made of the path and written at the import.
A name that is taken or means something else gets a number. -/
namespace LoxLang.Schema

def standardPackages : List String := [
  "archive/tar", "archive/zip", "bufio", "bytes", "compress/bzip2", "compress/flate",
  "compress/gzip", "compress/lzw", "compress/zlib", "container/heap", "container/list",
  "container/ring", "context", "crypto", "crypto/aes", "crypto/cipher", "crypto/des",
  "crypto/dsa", "crypto/ecdsa", "crypto/elliptic", "crypto/hmac", "crypto/internal/cipherhw",
  "crypto/md5", "crypto/rand", "crypto/rc4", "crypto/rsa", "crypto/sha1", "crypto/sha256",
  "crypto/sha512", "crypto/subtle", "crypto/tls", "crypto/x509", "crypto/x509/pkix",
  "database/sql", "database/sql/driver", "debug/dwarf", "debug/elf", "debug/gosym", "debug/macho",
  "debug/pe", "debug/plan9obj", "encoding", "encoding/ascii85", "encoding/asn1",
  "encoding/base32", "encoding/base64", "encoding/binary", "encoding/csv", "encoding/gob",
  "encoding/hex", "encoding/json", "encoding/pem", "encoding/xml", "errors", "expvar", "flag",
  "fmt", "go/ast", "go/build", "go/constant", "go/doc", "go/format", "go/importer",
  "go/internal/gccgoimporter", "go/internal/gcimporter", "go/internal/srcimporter", "go/parser",
  "go/printer", "go/scanner", "go/token", "go/types", "hash", "hash/adler32", "hash/crc32",
  "hash/crc64", "hash/fnv", "html", "html/template", "image", "image/color",
  "image/color/palette", "image/draw", "image/gif", "image/internal/imageutil", "image/jpeg",
  "image/png", "index/suffixarray", "internal/cpu", "internal/nettrace", "internal/poll",
  "internal/race", "internal/singleflight", "internal/syscall/unix",
  "internal/syscall/windows/sysdll", "internal/testenv", "internal/testlog", "internal/trace",
  "io", "io/ioutil", "log", "log/syslog", "math", "math/big", "math/bits", "math/cmplx",
  "math/rand", "mime", "mime/multipart", "mime/quotedprintable", "net", "net/http",
  "net/http/cgi", "net/http/cookiejar", "net/http/fcgi", "net/http/httptest",
  "net/http/httptrace", "net/http/httputil", "net/http/internal", "net/http/pprof",
  "net/internal/socktest", "net/mail", "net/rpc", "net/rpc/jsonrpc", "net/smtp", "net/textproto",
  "net/url", "os", "os/exec", "os/signal", "os/signal/internal/pty", "os/user", "path",
  "path/filepath", "plugin", "reflect", "regexp", "regexp/syntax", "runtime", "runtime/cgo",
  "runtime/debug", "runtime/internal/atomic", "runtime/internal/sys", "runtime/msan",
  "runtime/pprof", "runtime/pprof/internal/profile", "runtime/race", "runtime/trace", "sort",
  "strconv", "strings", "sync", "sync/atomic", "syscall", "testing", "testing/internal/testdeps",
  "testing/iotest", "testing/quick", "text/scanner", "text/tabwriter", "text/template",
  "text/template/parse", "time", "unicode", "unicode/utf16", "unicode/utf8", "unsafe"]

def reservedNames : List String := [
  "break", "default", "func", "interface", "select", "case", "defer", "go", "map", "struct", "chan",
  "else", "goto", "package", "switch", "const", "fallthrough", "if", "range", "type", "continue",
  "for", "import", "return", "var", "bool", "byte", "complex64", "complex128", "error", "float32",
  "float64", "int", "int8", "int16", "int32", "int64", "rune", "string", "uint", "uint8", "uint16",
  "uint32", "uint64", "uintptr", "true", "false", "iota", "nil", "append", "cap", "close",
  "complex", "copy", "delete", "imag", "len", "make", "new", "panic", "print", "println", "real",
  "recover", "err"]

def afterSlash (path : List Char) : List Char :=
  (path.reverse.takeWhile (· != '/')).reverse

/-- The last element of a path, whatever slashes follow it. -/
def lastElement (path : String) : String :=
  match path.toList with
  | [] => "."
  | chars =>
    match chars.reverse.dropWhile (· == '/') with
    | [] => "/"
    | trimmed => String.ofList (afterSlash trimmed.reverse)

/-- The small letter for a letter, where it is one of `a` to `z`. Two letters beyond the usual ones have
such, the sign for the kelvin and the dotted capital `I`. -/
def smallLetter (c : Char) : Char :=
  if c == '\u212a' then 'k' else if c == '\u0130' then 'i' else c.toLower

/-- A name made of a path: the small letters and digits of its last element, from the first letter
on. -/
def guessedName (path : String) : String :=
  let chars := path.toList
  let last := afterSlash (if chars.getLast? == some '/' then chars.dropLast else chars)
  let kept := (last.map smallLetter).filter fun c => c.isDigit || c.isLower
  match kept.dropWhile Char.isDigit with
  | [] => "pkg"
  | name => String.ofList name

/-- A package in use: its path, the name that it is used by, and whether the import has to say so. -/
structure Package where
  path : String
  name : String
  named : Bool
deriving DecidableEq, Inhabited, Repr

/-- The first of `name`, `name1`, `name2` and so on that is free. -/
def freeName (taken : List String) (name : String) : String :=
  let candidates := name :: (List.range (taken.length + reservedNames.length + 1)).map fun i =>
    name ++ toString (i + 1)
  (candidates.find? fun n => !reservedNames.contains n && !taken.contains n).getD name

/-- The path that stands for declarations of another language. It is a name by itself. -/
def foreignPath : String := "C"

/-- One more package, unless it is there already. -/
def addPackage (packages : List Package) (path : String) : List Package :=
  if packages.any (·.path == path) then packages
  else if path == foreignPath then packages ++ [{ path, name := path, named := false }]
  else
    let standard := standardPackages.contains path
    let wanted := if standard then lastElement path else guessedName path
    let name := freeName (packages.map (·.name)) wanted
    packages ++ [{ path, name, named := !standard || name != wanted }]

/-- The packages of the given paths, which get their names in this order. -/
def packagesOf (paths : List String) : List Package :=
  paths.foldl addPackage []

end LoxLang.Schema
