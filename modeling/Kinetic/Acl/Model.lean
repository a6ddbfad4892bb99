import Kinetic.Lib.Attempt
import Mathlib.Logic.Function.Basic

namespace Kinetic

/-- A value as `json-c` has read it. `null` is its `NULL` pointer, a string is a list of bytes that may have zeros in it,
and a floating-point number is given by its bits. -/
inductive Json
  | null
  | boolean (b : Bool)
  | double (bits : UInt64)
  | int (n : Int64)
  | string (s : List UInt8)
  | array (elements : List Json)
  | object (members : List (List UInt8 × Json))

def Json.isNull : Json → Bool
  | .null => true
  | _ => false

/-- The bytes of a text without letters outside of ASCII. -/
def ascii (text : String) : List UInt8 := text.toList.map fun letter => UInt8.ofNat letter.toNat

/-- `json_object_object_get_ex`, which finds nothing in what is no object. -/
def Json.get : Json → String → Option Json
  | .object members, key => (members.find? fun member => member.1 = ascii key).map Prod.snd
  | _, _ => none

/-- The conversions of `json-c` from values of one type to another. -/
structure JsonConversions where
  int64 : Json → Int64
  boolean : Json → Bool
  text : Json → List UInt8

namespace JsonConversions
variable (c : JsonConversions)

/-- `json_object_get_int64`. -/
def getInt64 : Json → Int64
  | .null => 0
  | .int n => n
  | value => c.int64 value

/-- `json_object_get_boolean`. -/
def getBoolean : Json → Bool
  | .null => false
  | .boolean b => b
  | value => c.boolean value

/-- `json_object_get_string`. -/
def getString : Json → Option (List UInt8)
  | .null => none
  | .string s => some s
  | value => some (c.text value)

end JsonConversions

/-- What `strlen`, `strcmp` and `memcpy` see of a string: the bytes before the first zero. -/
def cString (text : List UInt8) : List UInt8 := text.takeWhile fun byte => byte ≠ 0

inductive KineticACLLoadResult
  | ok
  | endOfStream
  | errorNull
  | errorMemory
  | errorJsonFile
  | errorBadJson
  | errorMissingField
  | errorInvalidField
  deriving DecidableEq

inductive AclPermission
  | invalidPermission
  | read
  | write
  | delete
  | range
  | setup
  | p2pop
  | getlog
  | security
  deriving DecidableEq

def permissionTable : List (AclPermission × String) :=
  [(.invalidPermission, "INVALID"), (.read, "READ"), (.write, "WRITE"), (.delete, "DELETE"), (.range, "RANGE"),
    (.setup, "SETUP"), (.p2pop, "P2POP"), (.getlog, "GETLOG"), (.security, "SECURITY")]

/-- `str_of_permission`. -/
def strOfPermission (perm : AclPermission) : String :=
  match permissionTable.find? fun pair => pair.1 = perm with
  | some pair => pair.2
  | none => "INVALID"

/-- `permission_of_str`. -/
def permissionOfStr (str : List UInt8) : AclPermission :=
  match permissionTable.find? fun pair => cString str = ascii pair.2 with
  | some pair => pair.1
  | none => .invalidPermission

def aclMaxPermissions : Nat := 8

/-- `Command__Security__ACL__Scope`. An array is a function of its index, a `NULL` pointer to one is `none`. -/
structure AclScope where
  hasOffset : Bool
  offset : Int64
  hasValue : Bool
  value : List UInt8
  nPermission : Nat
  permission : Option (Nat → AclPermission)
  hasTlsrequired : Bool
  tlsrequired : Bool

inductive AclHmacAlgorithm
  | unset
  | hmacSHA1
  deriving DecidableEq

/-- `Command__Security__ACL`, without the priority, which the loader does not touch. -/
structure Acl where
  hasIdentity : Bool
  identity : Int64
  hasKey : Bool
  key : List UInt8
  hasHmacalgorithm : Bool
  hmacalgorithm : AclHmacAlgorithm
  nScope : Nat
  scope : Nat → Option AclScope

/-- `com__seagate__kinetic__proto__command__security__acl__scope__init`. -/
def aclScopeInit : AclScope where
  hasOffset := false
  offset := 0
  hasValue := false
  value := []
  nPermission := 0
  permission := none
  hasTlsrequired := false
  tlsrequired := false

/-- `com__seagate__kinetic__proto__command__security__acl__init`. -/
def aclInit : Acl where
  hasIdentity := false
  identity := 0
  hasKey := false
  key := []
  hasHmacalgorithm := false
  hmacalgorithm := .unset
  nScope := 0
  scope _ := none

/-- Loading an ACL ends early with a result, or the behaviour of the program is not defined from some point on: it has
passed `NULL` for a string or an array, or written past the end of one. -/
inductive LoadFailure
  | result (res : KineticACLLoadResult)
  | undefined
  deriving DecidableEq

/-- Loading asks for memory, and notes at which index it writes to `scope->permission`. -/
abbrev Load := Attempt LoadFailure Nat

namespace Load

/-- An allocation, with the jump to `cleanup` and its `ACL_ERROR_MEMORY` when it fails. -/
def allocate : Load Unit := .request (.done ())

def error {α : Type} (res : KineticACLLoadResult) : Load α := .fail (.result res)

/-- A pointer that the code reads from without a check. -/
def deref {α : Type} : Option α → Load α
  | some value => .done value
  | none => .fail .undefined

/-- A write to `scope->permission`, which has room for `ACL_MAX_PERMISSIONS` entries. -/
def writePermission (i : Nat) : Load Unit :=
  .note i (if i < aclMaxPermissions then .done () else .fail .undefined)

/-- A run in which the `j`-th allocation succeeds if `grants j` says so. -/
def outcome {α : Type} (load : Load α) (grants : Nat → Bool) : Attempt.Outcome LoadFailure Nat α :=
  load.run (.result .errorMemory) grants

end Load
open Load

section Reading
variable (c : JsonConversions)

/-- The loop of `unpack_scopes` over an array of permissions. -/
def unpackPermissions : List Json → Nat → (Nat → AclPermission) → Load (Nat × (Nat → AclPermission))
  | [], n, permission => pure (n, permission)
  | jperm :: rest, n, permission => do
    let str ← deref (c.getString jperm)
    let p := permissionOfStr str
    if p = .invalidPermission then error .errorInvalidField
    else do
      writePermission n
      unpackPermissions rest (n + 1) (Function.update permission n p)

/-- The field `permission` of a scope, a name or an array of them. The memory from `calloc` has zeros, that is `READ`. -/
def unpackPermission (scope : AclScope) : Option Json → Load AclScope
  | none => pure scope
  | some val => do
    allocate
    match val with
    | .string s => do
      writePermission 0
      let p := permissionOfStr s
      if p = .invalidPermission then error .errorInvalidField
      else pure { scope with permission := some (Function.update (fun _ => .read) 0 p), nPermission := 1 }
    | .array elements => do
      let (n, permission) ← unpackPermissions c elements 0 fun _ => .read
      pure { scope with permission := some permission, nPermission := n }
    | _ => error .errorInvalidField

/-- The field `offset` of a scope. -/
def readOffset (scope : AclScope) : Option Json → AclScope
  | some val => { scope with offset := c.getInt64 val, hasOffset := true }
  | none => { scope with hasOffset := false }

/-- The field `TlsRequired` of a scope. -/
def readTlsRequired (scope : AclScope) : Option Json → AclScope
  | some val => { scope with tlsrequired := c.getBoolean val, hasTlsrequired := true }
  | none => scope

/-- The field `value` of a scope. -/
def unpackValue (scope : AclScope) : Option Json → Load AclScope
  | none => pure { scope with hasValue := false }
  | some val =>
    match c.getString val with
    | none => pure scope
    | some str => do
      allocate
      pure { scope with value := cString str, hasValue := true }

/-- The body of the loop of `unpack_scopes`, for an element that is not `NULL`. -/
def unpackScope (curScope : Json) : Load AclScope := do
  allocate
  let scope ← unpackValue c (readOffset c aclScopeInit (curScope.get "offset")) (curScope.get "value")
  let scope ← unpackPermission c { scope with nPermission := 0 } (curScope.get "permission")
  pure (readTlsRequired c scope (curScope.get "TlsRequired"))

/-- The loop of `unpack_scopes`, which skips the elements that are `NULL`. -/
def unpackScopeLoop : List Json → Acl → Load Acl
  | [], acl => pure acl
  | curScope :: rest, acl =>
    if curScope.isNull then unpackScopeLoop rest acl
    else do
      let scope ← unpackScope c curScope
      unpackScopeLoop rest { acl with scope := Function.update acl.scope acl.nScope (some scope), nScope := acl.nScope + 1 }

/-- `unpack_scopes`, called with the number of the elements as `scope_count`. -/
def unpackScopes (acl : Acl) (scopes : List Json) : Load Acl := do
  allocate
  let acl ← unpackScopeLoop c scopes { acl with scope := fun _ => none }
  pure { acl with nScope := scopes.length }

/-- The field `identity` of an ACL. -/
def readIdentity (acl : Acl) : Option Json → Acl
  | some val => { acl with hasIdentity := true, identity := c.getInt64 val }
  | none => { acl with hasIdentity := false }

/-- The field `key` of an ACL. -/
def readKey (acl : Acl) : Option Json → Load Acl
  | none => pure acl
  | some val => do
    let key ← deref (c.getString val)
    allocate
    pure { acl with hasHmacalgorithm := true, hmacalgorithm := .hmacSHA1, key := cString key, hasKey := true }

/-- The field `HMACAlgorithm`, of which there is one. -/
def readHmac : Option Json → Load Unit
  | none => pure ()
  | some val => do
    let hmac ← deref (c.getString val)
    if cString hmac = ascii "HmacSHA1" then pure () else error .errorInvalidField

/-- `read_next_ACL`, from the object on that the tokener has returned. The number of scopes is asked of
`json_object_array_length`, which must not be called with anything but an array. -/
def readNextACL (obj : Json) : Load Acl :=
  match obj.get "scope" with
  | none => error .errorMissingField
  | some (.array scopes) => do
    allocate
    let acl ← readKey c (readIdentity c aclInit (obj.get "identity")) (obj.get "key")
    readHmac c (obj.get "HMACAlgorithm")
    unpackScopes c acl scopes
  | some _ => .fail .undefined

end Reading

/-- The inner loop of `KineticACL_Free` from scope `si` on, with `n` scopes left, which reads each of them without a check:
the scopes it visits, or `none` when it comes to a `NULL` pointer. -/
def freeScopesLoop (acl : Acl) : Nat → Nat → Option (List AclScope)
  | _, 0 => some []
  | si, n + 1 =>
    match acl.scope si with
    | none => none
    | some scope => (freeScopesLoop acl (si + 1) n).map (List.cons scope)

/-- `KineticACL_Free` over the scopes of one ACL. -/
def kineticACLFreeScopes (acl : Acl) : Option (List AclScope) := freeScopesLoop acl 0 acl.nScope

end Kinetic
