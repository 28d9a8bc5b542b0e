import Soter.Lib.Buffer

/-! What is accepted as a piece of evidence (`file-validation.ts`). -/
namespace Soter.Evidence
open Soter.Buffers

abbrev Buffer := List Byte

def maxFileSize : ℕ := 10 * 1024 * 1024

def allowedMimeTypes : List String := ["image/jpeg", "image/png", "image/gif", "application/pdf", "text/plain"]

def allowedExtensions : List String := [".jpg", ".jpeg", ".png", ".gif", ".pdf", ".txt"]

def maxFilenameLength : ℕ := 255

def extensionMimeMap : String → List String
  | ".jpg" | ".jpeg" => ["image/jpeg"]
  | ".png" => ["image/png"]
  | ".gif" => ["image/gif"]
  | ".pdf" => ["application/pdf"]
  | ".txt" => ["text/plain"]
  | _ => []

def magicSignatures : List (String × Buffer) :=
  [("image/jpeg", [0xff, 0xd8, 0xff]), ("image/png", [0x89, 0x50, 0x4e, 0x47, 0x0d, 0x0a, 0x1a, 0x0a]),
    ("image/gif", [0x47, 0x49, 0x46, 0x38]), ("application/pdf", [0x25, 0x50, 0x44, 0x46])]

def startsWith (buffer bytes : Buffer) : Bool := bytes.isPrefixOf buffer

def textLength (text : List Char) : ℕ := (text.map fun c => if 0xffff < c.toNat then 2 else 1).sum

def isSafeFilename (name : String) : Bool :=
  let chars := name.toList
  chars ≠ [] ∧ textLength chars ≤ maxFilenameLength ∧ (chars.all fun c => 0x20 ≤ c.toNat ∧ c.toNat ≠ 0x7f) ∧
    '/' ∉ chars ∧ '\\' ∉ chars ∧ name ≠ "." ∧ name ≠ ".."

/-- `path.extname`, of a name without slashes: what begins with the last dot, unless nothing stands before it. -/
def extname (name : String) : String :=
  let chars := name.toList
  let before := chars.length - (chars.reverse.takeWhile (· ≠ '.')).length - 1
  if '.' ∉ chars ∨ before = 0 ∨ name = ".." then "" else String.ofList (chars.drop before)

inductive Rejection
  | app (status : ℕ) (message : String)
  | payloadTooLarge (message : String)
  deriving DecidableEq

def badRequest (message : String) : Rejection := .app 400 message

def listed (items : List String) : String := String.intercalate ", " items

variable (lower : String → String)

def validateExtensionForMime (filename mimetype : String) : Except Rejection String :=
  let ext := lower (extname filename)
  if ext = "" ∨ ext ∉ allowedExtensions then
    let shown := if ext = "" then "(none)" else ext
    .error (badRequest
      s!"Invalid file extension: {shown}. Allowed extensions: {listed allowedExtensions}")
  else if mimetype ∉ extensionMimeMap ext then
    .error (badRequest s!"Declared MIME type {mimetype} does not match extension {ext}")
  else .ok ext

def assertContentMatchesType (mimetype : String) (buffer : Buffer) : Except Rejection Unit :=
  if mimetype = "text/plain" then
    if magicSignatures.any (fun sig => startsWith buffer sig.2) ∨ 0 ∈ buffer.take 512 then
      .error (badRequest "File contents do not match the declared text/plain type")
    else .ok ()
  else
    match magicSignatures.find? (·.1 = mimetype) with
    | none => .ok ()
    | some sig =>
      if startsWith buffer sig.2 then .ok ()
      else .error (badRequest s!"File contents do not match the declared {mimetype} type")

structure ValidatedFile where
  filename : String
  size : ℕ
  mimetype : String
  extension : String

def validateFileContent (filename mimetype : String) (size : ℕ) (buffer : Buffer) : Except Rejection ValidatedFile :=
  if size = 0 ∨ buffer = [] then .error (badRequest "Uploaded file is empty")
  else if maxFileSize < size then .error (.payloadTooLarge s!"File too large. Maximum allowed size is {maxFileSize / (1024 * 1024)}MB")
  else if isSafeFilename filename = false then .error (badRequest "Invalid filename")
  else if mimetype ∉ allowedMimeTypes then
    .error (badRequest
      s!"Invalid MIME type: {mimetype}. Allowed types: {listed allowedMimeTypes}")
  else do
    let ext ← validateExtensionForMime lower filename mimetype
    assertContentMatchesType mimetype buffer
    return { filename, size, mimetype, extension := ext }

end Soter.Evidence
