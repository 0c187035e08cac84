import JarReader.System.Basic
import JarReader.Url.Basic

/-!
Resolving `jar:` URLs. A handler keeps the jars at the roots of the URLs open, each under the
identity of its file, and at most one for each place: a root whose file has changed is opened again
and the old one forgotten.
-/

namespace JarReader

structure Handler where
  useCache : Bool
  roots : List (FileIdentity × Jar)

structure Connection where
  jar : Jar
  entry? : Option Entry

namespace Handler

def new (useCache : Bool) : Handler := ⟨useCache, []⟩

def clear (h : Handler) : Handler := { h with roots := [] }

/-- Holds a root, and no older version of it. -/
def hold (h : Handler) (identity : FileIdentity) (jar : Jar) : Handler :=
  { h with roots := (identity, jar) :: h.roots.filter fun root =>
      root.1.location ≠ identity.location }

def root (h : Handler) (s : System) (path : String) : Except Failure Jar × Handler × System :=
  match FileIdentity.ofPath s.disk path with
  | .error failure => (.error failure, h, s)
  | .ok identity =>
    match h.roots.lookup identity with
    | some jar => (.ok jar, h, s)
    | none =>
      match s.openJar h.useCache path with
      | (.error failure, s) => (.error failure, h, s)
      | (.ok jar, s) => (.ok jar, h.hold identity jar, s)

def descend (s : System) (jar : Jar) : (segments : List String) → Except Failure Jar × System
  | [] => (.ok jar, s)
  | segment :: segments =>
    match s.nested? jar segment with
    | (.error failure, s) => (.error failure, s)
    | (.ok none, s) => (.error (.notFound segment), s)
    | (.ok (some jar), s) => descend s jar segments

def connection (jar : Jar) (entry : String) : Except Failure Connection :=
  if entry = "" then .ok ⟨jar, none⟩
  else
    match jar.entry? entry with
    | some found => .ok ⟨jar, some found⟩
    | none => .error (.notFound entry)

def connect (h : Handler) (s : System) (url : String) :
    Except Failure Connection × Handler × System :=
  match JarUrl.parse url with
  | .error failure => (.error failure, h, s)
  | .ok parts =>
    match h.root s parts.file with
    | (.error failure, h, s) => (.error failure, h, s)
    | (.ok jar, h, s) =>
      match descend s jar parts.nested with
      | (.error failure, s) => (.error failure, h, s)
      | (.ok jar, s) => (connection jar parts.entry, h, s)

end Handler

namespace Connection

def contentLength? (c : Connection) : Option Nat := c.entry?.map (·.size)

def openEntry (d : Disk) (c : Connection) : Except Failure ContentReader :=
  match c.entry? with
  | some entry => c.jar.openEntry d entry
  | none => .error (.notFound (c.jar.url d.homeText))

end Connection
end JarReader
