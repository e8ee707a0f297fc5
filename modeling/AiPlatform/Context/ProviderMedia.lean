import AiPlatform.Context.ProviderSessions
import AiPlatform.Foundation.JsonPath

/-!
# Images kept outside the transcript

An entry is stored with its images replaced by empty strings and a reference for each of them.
`restoreProviderImages` puts the images back; it looks for every image by its id among the values
it is given and checks size and digest.
-/
namespace AiPlatform.Context

open AiPlatform.Foundation AiPlatform.Kernel

/-- What the runtime brings: tables of characters, the printing of numbers, and a digest. -/
structure Runtime where
  unicode : Unicode
  floats : FloatFormat
  /-- `hashlib.sha256(text.encode("utf-8")).hexdigest()` -/
  sha256 : List Char → String

/-- No text of the one list has the digest of another text of the other. -/
def Runtime.Separates (rt : Runtime) (texts others : List (List Char)) : Prop :=
  ∀ x ∈ texts, ∀ y ∈ others, rt.sha256 x = rt.sha256 y → x = y

def maxProviderImageBytes : Nat := 8 * 1024 * 1024
def maxProviderImageFields : Nat := 128
def providerMediaFormat : String := "image-payloads-v1"

structure ImageReference where
  path : List Json.Part
  sha256 : String
  sizeBytes : Int
  imageId : String
  deriving DecidableEq

/-- Image texts by image id. -/
abbrev ImageValues := List (String × String)

def replaceImage (path : List Json.Part) (expected replacement : String) (entry : Json) :
    Except Refusal Json :=
  if path ≠ [] ∧ path.length ≤ 64 then
    match Json.replaceAt expected replacement path entry with
    | some entry => .ok entry
    | none => .error (.continuity .integrityMismatch)
  else .error (.continuity .integrityMismatch)

section Restore

variable (rt : Runtime) (values : ImageValues)

/-- The text a reference stands for, once it is found and checked. -/
def referencedImage (ref : ImageReference) : Except Refusal String := do
  ensure (ref.imageId ≠ "") (.continuity .integrityMismatch)
  match values.lookup ref.imageId with
  | none => .error (.continuity .imageUnavailable)
  | some value => do
    ensure (0 < value.utf8ByteSize ∧ value.utf8ByteSize ≤ maxProviderImageBytes ∧
      (value.utf8ByteSize : Int) = ref.sizeBytes ∧ rt.sha256 value.toList = ref.sha256)
      (.continuity .integrityMismatch)
    .ok value

def restoreImage (entry : Json) (ref : ImageReference) : Except Refusal Json := do
  let value ← referencedImage rt values ref
  replaceImage ref.path "" value entry

def restoreProviderImages (entry : Json) (references : List ImageReference) :
    Except Refusal Json := do
  ensure (references.length ≤ maxProviderImageFields) (.continuity .integrityMismatch)
  references.foldlM (restoreImage rt values) entry

end Restore

/-! ## Restoring and sorting -/

section Canonical

variable {rt : Runtime} {values others : ImageValues}

variable {entry result : Json} {references : List ImageReference}

theorem replaceImage_eq_ok {path : List Json.Part} {expected replacement : String}
    (h : replaceImage path expected replacement entry = .ok result) :
    path ≠ [] ∧ path.length ≤ 64 ∧
      Json.replaceAt expected replacement path entry = some result := by
  unfold replaceImage at h
  split_ifs at h with hpath
  split at h
  · obtain rfl := Except.ok.inj h
    exact ⟨hpath.1, hpath.2, by assumption⟩
  · contradiction

theorem restoreImage_canonical {ref : ImageReference} (hproper : Json.Proper rt.floats entry)
    (h : restoreImage rt values entry ref = .ok result) :
    restoreImage rt values (Json.canonical entry) ref = .ok (Json.canonical result) ∧
      Json.Proper rt.floats result := by
  obtain ⟨value, hvalue, h⟩ := bind_eq_ok.mp h
  obtain ⟨hne, hlength, hreplace⟩ := replaceImage_eq_ok h
  refine ⟨?_, hproper.replaceAt hreplace⟩
  rw [restoreImage, hvalue, ok_bind, replaceImage, if_pos ⟨hne, hlength⟩,
    Json.replaceAt_canonical hproper, hreplace]
  rfl

theorem foldlM_restoreImage_canonical (hproper : Json.Proper rt.floats entry)
    (h : references.foldlM (restoreImage rt values) entry = .ok result) :
    references.foldlM (restoreImage rt values) (Json.canonical entry) =
        .ok (Json.canonical result) ∧ Json.Proper rt.floats result := by
  induction references generalizing entry with
  | nil =>
    obtain rfl := Except.ok.inj h
    exact ⟨rfl, hproper⟩
  | cons ref references ih =>
    rw [List.foldlM_cons] at h
    obtain ⟨next, hnext, h⟩ := bind_eq_ok.mp h
    obtain ⟨hsorted, hproper⟩ := restoreImage_canonical hproper hnext
    rw [List.foldlM_cons, hsorted, ok_bind]
    exact ih hproper h

/-- Images are put back into the sorted entry as into the entry itself. -/
theorem restoreProviderImages_canonical (hproper : Json.Proper rt.floats entry)
    (h : restoreProviderImages rt values entry references = .ok result) :
    restoreProviderImages rt values (Json.canonical entry) references =
        .ok (Json.canonical result) ∧ Json.Proper rt.floats result := by
  obtain ⟨hcount, h⟩ := ensure_bind_eq_ok.mp h
  obtain ⟨hsorted, hproper⟩ := foldlM_restoreImage_canonical hproper h
  rw [restoreProviderImages, ensure_of hcount, ok_bind]
  exact ⟨hsorted, hproper⟩

theorem restoreProviderImages_nil (entry : Json) :
    restoreProviderImages rt values entry [] = .ok entry := rfl

/-! ## More images -/

/-- Every image that is found is found among the others, with the same text. -/
def ImageValues.Extends (values others : ImageValues) : Prop :=
  ∀ id value, values.lookup id = some value → others.lookup id = some value

theorem referencedImage_extends (hmore : values.Extends others) {ref : ImageReference}
    {value : String} (h : referencedImage rt values ref = .ok value) :
    referencedImage rt others ref = .ok value := by
  obtain ⟨hid, h⟩ := ensure_bind_eq_ok.mp h
  rw [referencedImage, ensure_of hid, ok_bind]
  split at h
  · contradiction
  · rename_i found hfound
    rw [hmore _ _ hfound]
    exact h

theorem foldlM_restoreImage_extends (hmore : values.Extends others)
    (h : references.foldlM (restoreImage rt values) entry = .ok result) :
    references.foldlM (restoreImage rt others) entry = .ok result := by
  induction references generalizing entry with
  | nil => exact h
  | cons ref references ih =>
    rw [List.foldlM_cons] at h ⊢
    obtain ⟨next, hnext, h⟩ := bind_eq_ok.mp h
    obtain ⟨value, hvalue, hnext⟩ := bind_eq_ok.mp hnext
    rw [restoreImage, referencedImage_extends hmore hvalue, ok_bind, hnext, ok_bind]
    exact ih h

theorem restoreProviderImages_extends (hmore : values.Extends others)
    (h : restoreProviderImages rt values entry references = .ok result) :
    restoreProviderImages rt others entry references = .ok result := by
  obtain ⟨hcount, h⟩ := ensure_bind_eq_ok.mp h
  rw [restoreProviderImages, ensure_of hcount, ok_bind]
  exact foldlM_restoreImage_extends hmore h

end Canonical

end AiPlatform.Context
