import AiPlatform.Context.ProviderContinuity
import AiPlatform.Foundation.Bytes

/-!
# Taking images out of the transcript

`splitProviderImages` copies the entries of a transcript, empties the image fields that
`providerSessionImageFields` finds in them, and records for each field where it was, how long and
what digest its text had. Restoring puts every text back where it was. In the emptied entries no
image is found again, unless a block carries a second image in another form.
-/
namespace AiPlatform.Context.ImageSplit

open AiPlatform.Foundation

/-! ## Finding images -/

def imageTypes : List String := ["image/png", "image/jpeg", "image/gif", "image/webp"]

/-- Where an image is, its type, and its encoded text. -/
structure ImageField where
  path : List Json.Part
  mediaType : String
  value : String
  deriving DecidableEq

abbrev Members := List (String × Json)

/-- A known image type with a text that is not empty. -/
def encodedImage (mediaType data : Option Json) : Option (String × String) :=
  match mediaType, data with
  | some (.str mediaType), some (.str data) =>
    if mediaType ∈ imageTypes ∧ data ≠ "" then some (mediaType, data) else none
  | _, _ => none

def sourceImage (block : Members) : Option (String × String) :=
  match block.lookup "source" with
  | some (.obj source) =>
    if source.lookup "type" = some (.str "base64") then
      encodedImage (source.lookup "media_type") (source.lookup "data")
    else none
  | _ => none

def flatImage (block : Members) : Option (String × String) :=
  encodedImage (block.lookup "mimeType") (block.lookup "data")

/-- The image of a block of type `image`. -/
def blockImage (location : List Json.Part) (block : Members) : List ImageField :=
  match sourceImage block with
  | some (mediaType, value) => [⟨location ++ [.key "source", .key "data"], mediaType, value⟩]
  | none =>
    match flatImage block with
    | some (mediaType, value) => [⟨location ++ [.key "data"], mediaType, value⟩]
    | none => []

mutual

/-- `blocks` -/
def imageBlocks (path : List Json.Part) : Json → List ImageField
  | .arr items => imageItems path 0 items
  | _ => []

def imageItems (path : List Json.Part) (index : Nat) : List Json → List ImageField
  | [] => []
  | block :: items =>
    imageBlock (path ++ [.index index]) block ++ imageItems path (index + 1) items

def imageBlock (location : List Json.Part) : Json → List ImageField
  | .obj block =>
    if block.lookup "type" = some (.str "image") then blockImage location block
    else if block.lookup "type" = some (.str "tool_result") then
      imageContent (location ++ [.key "content"]) block
    else []
  | _ => []

/-- `blocks(block.get("content"), path)` -/
def imageContent (path : List Json.Part) : Members → List ImageField
  | [] => []
  | (key, value) :: members =>
    if key = "content" then imageBlocks path value else imageContent path members

end

/-- The image of a file that a tool has read. -/
def fileImage (result : Members) : List ImageField :=
  match result.lookup "file" with
  | some (.obj file) =>
    if result.lookup "type" = some (.str "image") then
      match encodedImage (file.lookup "type") (file.lookup "base64") with
      | some (mediaType, value) =>
        [⟨[.key "toolUseResult", .key "file", .key "base64"], mediaType, value⟩]
      | none => []
    else []
  | _ => []

def providerSessionImageFields (entry : Json) : List ImageField :=
  (match entry.get? "message" with
    | some (.obj message) => imageContent [.key "message", .key "content"] message
    | _ => []) ++
  match entry.get? "toolUseResult" with
  | some (.obj result) =>
    imageContent [.key "toolUseResult", .key "content"] result ++ fileImage result
  | _ => []

/-! ## Splitting -/

/-- A reference as it is recorded, before its image has an id. -/
structure SplitReference where
  path : List Json.Part
  sha256 : String
  sizeBytes : Nat
  deriving DecidableEq

def SplitReference.withId (ref : SplitReference) (id : String) : ImageReference :=
  ⟨ref.path, ref.sha256, ref.sizeBytes, id⟩

structure ProviderImagePayload where
  sha256 : String
  content : Bytes
  mediaType : String
  deriving DecidableEq

structure ProviderMediaProjection where
  entries : List Json
  references : List (List SplitReference)
  images : List (String × ProviderImagePayload)
  deriving DecidableEq

/-- Refusals, with the numbers that their debug information carries. -/
inductive SplitRefusal where
  | imageCountExceeded (imageCount : Nat)
  | imageTooLarge (observedBytes imageCount : Nat)
  | refused (refusal : Refusal)
  deriving DecidableEq

/-- `images.setdefault(digest, payload)` -/
def setDefault (images : List (String × ProviderImagePayload)) (digest : String)
    (payload : ProviderImagePayload) : List (String × ProviderImagePayload) :=
  match images.lookup digest with
  | some _ => images
  | none => images ++ [(digest, payload)]

/-- The loop's variables inside one entry. -/
structure SplitState where
  count : Nat
  images : List (String × ProviderImagePayload)
  projected : Json
  refs : List SplitReference

section Split

variable (rt : Runtime) (imageFields : Json → List ImageField)

def splitField (s : SplitState) (field : ImageField) : Except SplitRefusal SplitState :=
  let count := s.count + 1
  let content := utf8 field.value.toList
  if maxProviderImageFields < count then .error (.imageCountExceeded count)
  else if maxProviderImageBytes < content.length then .error (.imageTooLarge content.length count)
  else
    let digest := rt.sha256 field.value.toList
    match replaceImage field.path field.value "" s.projected with
    | .error refusal => .error (.refused refusal)
    | .ok projected =>
      .ok ⟨count, setDefault s.images digest ⟨digest, content, field.mediaType⟩, projected,
        s.refs ++ [⟨field.path, digest, content.length⟩]⟩

def splitEntries (count : Nat) (images : List (String × ProviderImagePayload)) :
    List Json → Except SplitRefusal ProviderMediaProjection
  | [] => .ok ⟨[], [], images⟩
  | entry :: entries => do
    let s ← (imageFields entry).foldlM (splitField rt) ⟨count, images, entry, []⟩
    let rest ← splitEntries s.count s.images entries
    .ok ⟨s.projected :: rest.entries, s.refs :: rest.references, rest.images⟩

def splitProviderImages (entries : List Json) : Except SplitRefusal ProviderMediaProjection :=
  splitEntries rt imageFields 0 [] entries

end Split

/-! ## Emptying and filling -/

section Fill

variable {fmt : FloatFormat} {fields : List ImageField} {j p : Json}

def emptyAll (fields : List ImageField) (j : Json) : Option Json :=
  fields.foldlM (fun j field => Json.replaceAt field.value "" field.path j) j

def fillAll (fields : List ImageField) (j : Json) : Option Json :=
  fields.foldlM (fun j field => Json.replaceAt "" field.value field.path j) j

theorem emptyAll_cons {field : ImageField} :
    emptyAll (field :: fields) j = some p ↔
      ∃ j', Json.replaceAt field.value "" field.path j = some j' ∧ emptyAll fields j' = some p := by
  simp [emptyAll, List.foldlM_cons, Option.bind_eq_some_iff]

theorem proper_emptyAll (hproper : Json.Proper fmt j) (h : emptyAll fields j = some p) :
    Json.Proper fmt p := by
  induction fields generalizing j with
  | nil =>
    obtain rfl := Option.some.inj h
    exact hproper
  | cons field fields ih =>
    obtain ⟨j', hreplace, h⟩ := emptyAll_cons.mp h
    exact ih (hproper.replaceAt hreplace) h

/-- A field can also be emptied after the others. -/
theorem emptyAll_comm (hne : ∀ field ∈ fields, field.value ≠ "") {field : ImageField} {j' : Json}
    (hreplace : Json.replaceAt field.value "" field.path j = some j')
    (h : emptyAll fields j' = some p) :
    ∃ p', emptyAll fields j = some p' ∧ Json.replaceAt field.value "" field.path p' = some p := by
  induction fields generalizing j j' with
  | nil =>
    obtain rfl := Option.some.inj h
    exact ⟨j, rfl, hreplace⟩
  | cons next fields ih =>
    obtain ⟨j'', hnext, h⟩ := emptyAll_cons.mp h
    rw [List.forall_mem_cons] at hne
    obtain ⟨between, hbetween, hlast⟩ := Json.replaceAt_comm hne.1 hreplace hnext
    obtain ⟨p', hp', hfield⟩ := ih hne.2 hlast h
    exact ⟨p', emptyAll_cons.mpr ⟨between, hbetween, hp'⟩, hfield⟩

theorem fillAll_emptyAll (hne : ∀ field ∈ fields, field.value ≠ "") (hproper : Json.Proper fmt j)
    (h : emptyAll fields j = some p) : fillAll fields p = some j := by
  induction fields generalizing j p with
  | nil =>
    obtain rfl := Option.some.inj h
    rfl
  | cons field fields ih =>
    obtain ⟨j', hreplace, h⟩ := emptyAll_cons.mp h
    rw [List.forall_mem_cons] at hne
    obtain ⟨p', hp', hlast⟩ := emptyAll_comm hne.2 hreplace h
    have hundo := Json.replaceAt_undo (proper_emptyAll hproper hp') hlast
    rw [fillAll, List.foldlM_cons, hundo]
    exact ih hne.2 hproper hp'

/-- Every emptied field reads as the empty text. -/
theorem readAt_emptyAll (h : emptyAll fields j = some p) :
    (∀ path, Json.readAt path j = some (.str "") → Json.readAt path p = some (.str "")) ∧
      ∀ field ∈ fields, Json.readAt field.path p = some (.str "") := by
  induction fields generalizing j with
  | nil =>
    obtain rfl := Option.some.inj h
    exact ⟨fun _ h => h, nofun⟩
  | cons field fields ih =>
    obtain ⟨j', hreplace, h⟩ := emptyAll_cons.mp h
    obtain ⟨hkeep, hfields⟩ := ih h
    refine ⟨fun path hread => hkeep path (Json.readAt_replacement hreplace hread), ?_⟩
    rw [List.forall_mem_cons]
    exact ⟨hkeep field.path (Json.readAt_of_replaceAt hreplace), hfields⟩

end Fill

/-! ## What is recorded -/

section Recorded

variable {rt : Runtime} {imageFields : Json → List ImageField}
  {images : List (String × ProviderImagePayload)} {texts : List (List Char)}

/-- The reference of a field. -/
def referenceOf (rt : Runtime) (field : ImageField) : SplitReference :=
  ⟨field.path, rt.sha256 field.value.toList, (utf8 field.value.toList).length⟩

/-- The texts of the fields. -/
def fieldTexts (fields : List ImageField) : List (List Char) :=
  fields.map fun field => field.value.toList

/-- Every stored image is one of the texts, kept under its digest. -/
def Stored (rt : Runtime) (texts : List (List Char))
    (images : List (String × ProviderImagePayload)) : Prop :=
  ∀ image ∈ images, ∃ text ∈ texts, image.1 = rt.sha256 text ∧ image.2.content = utf8 text

theorem mem_setDefault {digest : String} {payload : ProviderImagePayload}
    {image : String × ProviderImagePayload} (h : image ∈ setDefault images digest payload) :
    image ∈ images ∨ image = (digest, payload) := by
  unfold setDefault at h
  split at h
  · exact .inl h
  · simpa using h

theorem subset_setDefault (digest : String) (payload : ProviderImagePayload) :
    images ⊆ setDefault images digest payload := by
  intro image h
  unfold setDefault
  split
  · exact h
  · exact List.mem_append_left _ h

variable (images) in
theorem exists_mem_setDefault (digest : String) (payload : ProviderImagePayload) :
    ∃ kept, (digest, kept) ∈ setDefault images digest payload := by
  unfold setDefault
  split
  · rename_i kept hlookup
    exact ⟨kept, Json.mem_of_lookup hlookup⟩
  · exact ⟨payload, by simp⟩

/-- What splitting one entry has recorded. -/
structure Recorded (rt : Runtime) (images : List (String × ProviderImagePayload))
    (fields : List ImageField) (entry projected : Json) (refs : List SplitReference) : Prop where
  emptied : emptyAll fields entry = some projected
  refs_eq : refs = fields.map (referenceOf rt)
  count_le : fields.length ≤ maxProviderImageFields
  path_ok : ∀ field ∈ fields, field.path ≠ [] ∧ field.path.length ≤ 64
  size_le : ∀ field ∈ fields, (utf8 field.value.toList).length ≤ maxProviderImageBytes
  stored : ∀ field ∈ fields, ∃ kept, (rt.sha256 field.value.toList, kept) ∈ images

theorem splitField_eq_ok {s s' : SplitState} {field : ImageField}
    (h : splitField rt s field = .ok s') :
    s'.count = s.count + 1 ∧ s'.count ≤ maxProviderImageFields ∧
      (utf8 field.value.toList).length ≤ maxProviderImageBytes ∧
      (field.path ≠ [] ∧ field.path.length ≤ 64) ∧
      Json.replaceAt field.value "" field.path s.projected = some s'.projected ∧
      s'.refs = s.refs ++ [referenceOf rt field] ∧
      s'.images = setDefault s.images (rt.sha256 field.value.toList)
        ⟨rt.sha256 field.value.toList, utf8 field.value.toList, field.mediaType⟩ := by
  unfold splitField at h
  dsimp only at h
  split_ifs at h with hcount hsize
  split at h
  · contradiction
  · rename_i projected hprojected
    obtain rfl := Except.ok.inj h
    obtain ⟨hne, hlength, hreplace⟩ := replaceImage_eq_ok hprojected
    exact ⟨rfl, not_lt.mp hcount, not_lt.mp hsize, ⟨hne, hlength⟩, hreplace, rfl, rfl⟩

theorem recorded_of_foldlM {fields : List ImageField} {s s' : SplitState}
    (hcount : s.count ≤ maxProviderImageFields)
    (h : fields.foldlM (splitField rt) s = .ok s') (htexts : fieldTexts fields ⊆ texts)
    (hstored : Stored rt texts s.images) :
    s'.count = s.count + fields.length ∧ s'.count ≤ maxProviderImageFields ∧
      Stored rt texts s'.images ∧ s.images ⊆ s'.images ∧
      ∃ refs, s'.refs = s.refs ++ refs ∧
        Recorded rt s'.images fields s.projected s'.projected refs := by
  induction fields generalizing s with
  | nil =>
    obtain rfl := Except.ok.inj h
    refine ⟨rfl, hcount, hstored, List.Subset.refl _, [], (List.append_nil _).symm, ?_⟩
    exact ⟨rfl, rfl, Nat.zero_le _, nofun, nofun, nofun⟩
  | cons field fields ih =>
    rw [List.foldlM_cons] at h
    obtain ⟨next, hnext, h⟩ := bind_eq_ok.mp h
    obtain ⟨hcount', hle, hsize, hpath, hreplace, hrefs, himages⟩ := splitField_eq_ok hnext
    obtain ⟨htext, htexts⟩ := List.cons_subset.mp htexts
    have hstored' : Stored rt texts next.images := by
      rw [himages]
      intro image himage
      rcases mem_setDefault himage with himage | rfl
      · exact hstored image himage
      · exact ⟨field.value.toList, htext, rfl, rfl⟩
    obtain ⟨hlast, hle', hstored'', hsub, refs, hrefs', hrec⟩ := ih hle h htexts hstored'
    have hsub' : s.images ⊆ next.images := himages ▸ subset_setDefault _ _
    obtain ⟨kept, hkept⟩ := exists_mem_setDefault s.images (rt.sha256 field.value.toList)
      ⟨rt.sha256 field.value.toList, utf8 field.value.toList, field.mediaType⟩
    rw [← himages] at hkept
    refine ⟨?_, hle', hstored'', List.Subset.trans hsub' hsub, referenceOf rt field :: refs, ?_, ?_⟩
    · rw [hlast, hcount', List.length_cons]
      omega
    · rw [hrefs', hrefs, List.append_assoc]
      rfl
    · constructor
      · exact emptyAll_cons.mpr ⟨_, hreplace, hrec.emptied⟩
      · rw [hrec.refs_eq]
        rfl
      · rw [List.length_cons]
        omega
      · exact List.forall_mem_cons.mpr ⟨hpath, hrec.path_ok⟩
      · exact List.forall_mem_cons.mpr ⟨hsize, hrec.size_le⟩
      · exact List.forall_mem_cons.mpr ⟨⟨kept, hsub hkept⟩, hrec.stored⟩

theorem Recorded.mono {images' : List (String × ProviderImagePayload)} {fields : List ImageField}
    {entry projected : Json} {refs : List SplitReference} (hsub : images ⊆ images')
    (h : Recorded rt images fields entry projected refs) :
    Recorded rt images' fields entry projected refs :=
  { h with stored := fun field hfield => (h.stored field hfield).imp fun _ hkept => hsub hkept }

/-- What splitting has recorded of all the entries. -/
theorem recorded_of_splitEntries {count : Nat} {entries : List Json}
    {projection : ProviderMediaProjection} (hcount : count ≤ maxProviderImageFields)
    (htexts : fieldTexts (entries.flatMap imageFields) ⊆ texts) (hstored : Stored rt texts images)
    (h : splitEntries rt imageFields count images entries = .ok projection) :
    Stored rt texts projection.images ∧ images ⊆ projection.images ∧
      projection.entries.length = projection.references.length ∧
      List.Forall₂ (fun entry item =>
        Recorded rt projection.images (imageFields entry) entry item.1 item.2)
        entries (projection.entries.zip projection.references) := by
  induction entries generalizing count images projection with
  | nil =>
    obtain rfl := Except.ok.inj h
    exact ⟨hstored, List.Subset.refl _, rfl, .nil⟩
  | cons entry entries ih =>
    obtain ⟨s, hs, h⟩ := bind_eq_ok.mp h
    obtain ⟨rest, hrest, h⟩ := bind_eq_ok.mp h
    obtain rfl := Except.ok.inj h
    rw [fieldTexts, List.flatMap_cons, List.map_append, List.append_subset] at htexts
    obtain ⟨-, hle, hstored', hsub, refs, hrefs, hrec⟩ :=
      recorded_of_foldlM hcount hs htexts.1 hstored
    obtain ⟨hstored'', hsub', hlength, hall⟩ := ih hle htexts.2 hstored' hrest
    refine ⟨hstored'', List.Subset.trans hsub hsub', ?_, ?_⟩
    · simp [hlength]
    · refine .cons ?_ hall
      rw [List.nil_append] at hrefs
      rw [hrefs]
      exact hrec.mono hsub'

end Recorded

/-! ## Restoring -/

section Restore

variable {rt : Runtime} {images : List (String × ProviderImagePayload)} {ids : String → String}
  {values : ImageValues} {texts : List (List Char)}

/-- The id of every image is bound to the text that was stored. -/
def Bound (images : List (String × ProviderImagePayload)) (ids : String → String)
    (values : ImageValues) : Prop :=
  ∀ image ∈ images, ids image.1 ≠ "" ∧
    ∃ value : String, values.lookup (ids image.1) = some value ∧
      utf8 value.toList = image.2.content

theorem referencedImage_of {ref : ImageReference} {value : String} (hid : ref.imageId ≠ "")
    (hlookup : values.lookup ref.imageId = some value)
    (hvalid : 0 < value.utf8ByteSize ∧ value.utf8ByteSize ≤ maxProviderImageBytes ∧
      (value.utf8ByteSize : Int) = ref.sizeBytes ∧ rt.sha256 value.toList = ref.sha256) :
    referencedImage rt values ref = .ok value := by
  rw [referencedImage, ensure_of hid, ok_bind, hlookup]
  dsimp only
  rw [ensure_of hvalid, ok_bind]

theorem utf8ByteSize_eq (text : String) : text.utf8ByteSize = (utf8 text.toList).length := by
  rw [String.utf8ByteSize, ← String.utf8Encode_toList]
  simp [List.utf8Encode, utf8]

section

variable (separates : rt.Separates texts texts) (hbound : Bound images ids values)
  (hstored : Stored rt texts images)
include separates hbound hstored

theorem lookup_of_bound {field : ImageField} (htext : field.value.toList ∈ texts)
    (h : ∃ kept, (rt.sha256 field.value.toList, kept) ∈ images) :
    ids (rt.sha256 field.value.toList) ≠ "" ∧
      values.lookup (ids (rt.sha256 field.value.toList)) = some field.value := by
  obtain ⟨kept, hkept⟩ := h
  obtain ⟨hid, value, hvalue, hcontent⟩ := hbound _ hkept
  obtain ⟨text, hmem, hdigest, hstored⟩ := hstored _ hkept
  have hsame : field.value.toList = text := separates _ htext _ hmem hdigest
  have hvalue' : value.toList = field.value.toList := by
    rw [hsame]
    exact utf8_injective (hcontent.trans hstored)
  rw [String.toList_injective hvalue'] at hvalue
  exact ⟨hid, hvalue⟩

theorem restoreImage_referenceOf {field : ImageField} (htext : field.value.toList ∈ texts)
    (hne : field.value ≠ "")
    (hpath : field.path ≠ [] ∧ field.path.length ≤ 64)
    (hsize : (utf8 field.value.toList).length ≤ maxProviderImageBytes)
    (hkept : ∃ kept, (rt.sha256 field.value.toList, kept) ∈ images) {j j' : Json}
    (hreplace : Json.replaceAt "" field.value field.path j = some j') :
    restoreImage rt values j ((referenceOf rt field).withId
      (ids (rt.sha256 field.value.toList))) = .ok j' := by
  obtain ⟨hid, hlookup⟩ := lookup_of_bound separates hbound hstored htext hkept
  have hpos : 0 < field.value.utf8ByteSize :=
    Nat.pos_of_ne_zero fun hzero => hne (String.utf8ByteSize_eq_zero_iff.mp hzero)
  have hvalue : referencedImage rt values ((referenceOf rt field).withId
      (ids (rt.sha256 field.value.toList))) = .ok field.value := by
    refine referencedImage_of hid hlookup ⟨hpos, utf8ByteSize_eq field.value ▸ hsize, ?_, rfl⟩
    rw [utf8ByteSize_eq]
    rfl
  rw [restoreImage, hvalue, ok_bind, replaceImage]
  simp only [SplitReference.withId, referenceOf, if_pos hpath, hreplace]

theorem foldlM_restoreImage {fields : List ImageField} (htexts : fieldTexts fields ⊆ texts)
    (hne : ∀ field ∈ fields, field.value ≠ "")
    (hpath : ∀ field ∈ fields, field.path ≠ [] ∧ field.path.length ≤ 64)
    (hsize : ∀ field ∈ fields, (utf8 field.value.toList).length ≤ maxProviderImageBytes)
    (hkept : ∀ field ∈ fields, ∃ kept, (rt.sha256 field.value.toList, kept) ∈ images) {j j' : Json}
    (hfill : fillAll fields j = some j') :
    ((fields.map (referenceOf rt)).map fun ref => ref.withId (ids ref.sha256)).foldlM
      (restoreImage rt values) j = .ok j' := by
  induction fields generalizing j with
  | nil =>
    obtain rfl := Option.some.inj hfill
    rfl
  | cons field fields ih =>
    rw [fillAll, List.foldlM_cons] at hfill
    obtain ⟨next, hnext, hfill⟩ := Option.bind_eq_some_iff.mp hfill
    rw [List.forall_mem_cons] at hne hpath hsize hkept
    obtain ⟨htext, htexts⟩ := List.cons_subset.mp htexts
    have hfirst := restoreImage_referenceOf separates hbound hstored htext hne.1 hpath.1 hsize.1
      hkept.1 hnext
    rw [List.map_cons, List.map_cons, List.foldlM_cons]
    exact bind_eq_ok.mpr ⟨next, hfirst, ih htexts hne.2 hpath.2 hsize.2 hkept.2 hfill⟩

/-- Restoring an entry with what was recorded of it gives it back. -/
theorem Recorded.restores {fields : List ImageField} {entry projected : Json}
    {refs : List SplitReference} (h : Recorded rt images fields entry projected refs)
    (htexts : fieldTexts fields ⊆ texts) (hne : ∀ field ∈ fields, field.value ≠ "")
    (hproper : Json.Proper rt.floats entry) :
    restoreProviderImages rt values projected
      (refs.map fun ref => ref.withId (ids ref.sha256)) = .ok entry := by
  have hcount : (refs.map fun ref => ref.withId (ids ref.sha256)).length ≤
      maxProviderImageFields := by
    rw [List.length_map, h.refs_eq, List.length_map]
    exact h.count_le
  rw [restoreProviderImages, ensure_of hcount, ok_bind, h.refs_eq]
  exact foldlM_restoreImage separates hbound hstored htexts hne h.path_ok h.size_le h.stored
    (fillAll_emptyAll hne hproper h.emptied)

end

end Restore

/-! ## What is found where -/

section Found

theorem encodedImage_eq_some {mediaType data : Option Json} {r : String × String}
    (h : encodedImage mediaType data = some r) :
    mediaType = some (.str r.1) ∧ data = some (.str r.2) ∧ r.1 ∈ imageTypes ∧ r.2 ≠ "" := by
  unfold encodedImage at h
  split at h
  · split_ifs at h with hvalid
    obtain rfl := Option.some.inj h
    exact ⟨rfl, rfl, hvalid⟩
  · contradiction

theorem encodedImage_of {mediaType data : String} (hmedia : mediaType ∈ imageTypes)
    (hdata : data ≠ "") :
    encodedImage (some (.str mediaType)) (some (.str data)) = some (mediaType, data) :=
  if_pos ⟨hmedia, hdata⟩

theorem imageContent_eq (path : List Json.Part) (members : Members) :
    imageContent path members = ((members.lookup "content").map (imageBlocks path)).getD [] := by
  induction members with
  | nil => simp [imageContent]
  | cons m members ih =>
    obtain ⟨key, value⟩ := m
    rw [imageContent, List.lookup_cons, ih]
    by_cases hkey : key = "content"
    · subst hkey
      simp
    · rw [if_neg hkey, beq_false_of_ne (Ne.symm hkey)]

/-- The field is below the path, holds its value, and the value is not empty. -/
def FoundAt (path : List Json.Part) (j : Json) (field : ImageField) : Prop :=
  ∃ rest, field.path = path ++ rest ∧ Json.readAt rest j = some (.str field.value) ∧
    field.value ≠ ""

theorem FoundAt.of_child {path : List Json.Part} {part : Json.Part} {j k : Json}
    {field : ImageField} (hchild : Json.child part j = some k)
    (h : FoundAt (path ++ [part]) k field) : FoundAt path j field := by
  obtain ⟨rest, hpath, hread, hne⟩ := h
  refine ⟨part :: rest, by simp [hpath], ?_, hne⟩
  rw [Json.readAt, hchild]
  exact hread

theorem foundAt_blockImage {location : List Json.Part} {block : Members} {field : ImageField}
    (h : field ∈ blockImage location block) : FoundAt location (.obj block) field := by
  unfold blockImage at h
  split at h
  · rename_i mediaType value hsource
    obtain rfl := List.mem_singleton.mp h
    unfold sourceImage at hsource
    split at hsource
    · rename_i source hlookup
      split_ifs at hsource
      obtain ⟨-, hdata, -, hne⟩ := encodedImage_eq_some hsource
      refine ⟨_, rfl, ?_, hne⟩
      simp [Json.readAt, Json.child, hlookup, hdata]
    · contradiction
  · split at h
    · rename_i mediaType value hflat
      obtain rfl := List.mem_singleton.mp h
      obtain ⟨-, hdata, -, hne⟩ := encodedImage_eq_some hflat
      refine ⟨_, rfl, ?_, hne⟩
      simp [Json.readAt, Json.child, hdata]
    · contradiction

theorem foundAt_imageItems {path : List Json.Part} {index : Nat} {items : List Json}
    (hblock : ∀ j ∈ items, ∀ location, ∀ field ∈ imageBlock location j, FoundAt location j field)
    {field : ImageField} (h : field ∈ imageItems path index items) :
    ∃ i j, items[i]? = some j ∧ FoundAt (path ++ [.index (index + i : Nat)]) j field := by
  induction items generalizing index with
  | nil => simp [imageItems] at h
  | cons j items ih =>
    rw [List.forall_mem_cons] at hblock
    rw [imageItems, List.mem_append] at h
    rcases h with h | h
    · exact ⟨0, j, rfl, hblock.1 _ field h⟩
    · obtain ⟨i, k, hget, hfound⟩ := ih hblock.2 h
      refine ⟨i + 1, k, hget, ?_⟩
      rwa [show index + (i + 1) = index + 1 + i by omega]

theorem foundAt_imageContent {path : List Json.Part} {members : Members}
    (hblocks : ∀ m ∈ members, ∀ path, ∀ field ∈ imageBlocks path m.2, FoundAt path m.2 field)
    {field : ImageField} (h : field ∈ imageContent (path ++ [.key "content"]) members) :
    FoundAt path (.obj members) field := by
  rw [imageContent_eq] at h
  cases hlookup : members.lookup "content" with
  | none => simp [hlookup] at h
  | some content =>
    rw [hlookup] at h
    have hchild : Json.child (.key "content") (.obj members) = some content := hlookup
    exact FoundAt.of_child hchild (hblocks _ (Json.mem_of_lookup hlookup) _ field h)

/-- What the walk finds is there. -/
theorem foundAt_image (j : Json) :
    (∀ path, ∀ field ∈ imageBlocks path j, FoundAt path j field) ∧
      ∀ location, ∀ field ∈ imageBlock location j, FoundAt location j field := by
  induction j using Json.induct with
  | null | bool | int | float | str => constructor <;> simp [imageBlocks, imageBlock]
  | arr items ih =>
    refine ⟨fun path field h => ?_, by simp [imageBlock]⟩
    rw [imageBlocks] at h
    obtain ⟨i, j, hget, hfound⟩ := foundAt_imageItems (fun j hj => (ih j hj).2) h
    refine FoundAt.of_child ?_ hfound
    simp [Json.child, hget]
  | obj members ih =>
    refine ⟨by simp [imageBlocks], fun location field h => ?_⟩
    rw [imageBlock] at h
    split_ifs at h
    · exact foundAt_blockImage h
    · exact foundAt_imageContent (fun m hm => (ih m hm).1) h
    · contradiction

theorem foundAt_fileImage {result : Members} {field : ImageField} (h : field ∈ fileImage result) :
    FoundAt [.key "toolUseResult"] (.obj result) field := by
  unfold fileImage at h
  split at h
  · rename_i file hfile
    split_ifs at h
    · split at h
      · rename_i mediaType value himage
        obtain rfl := List.mem_singleton.mp h
        obtain ⟨-, hdata, -, hne⟩ := encodedImage_eq_some himage
        refine ⟨[.key "file", .key "base64"], rfl, ?_, hne⟩
        simp [Json.readAt, Json.child, hfile, hdata]
      · contradiction
    · contradiction
  · contradiction

theorem child_of_get? {key : String} {j k : Json} (h : j.get? key = some k) :
    Json.child (.key key) j = some k := by
  cases j with
  | obj members => exact h
  | _ => contradiction

theorem foundAt_providerSessionImageFields {entry : Json} {field : ImageField}
    (h : field ∈ providerSessionImageFields entry) : FoundAt [] entry field := by
  have hcontent : ∀ {path : List Json.Part} {members : Members},
      field ∈ imageContent (path ++ [.key "content"]) members → FoundAt path (.obj members) field :=
    fun h => foundAt_imageContent (fun m _ => (foundAt_image m.2).1) h
  rw [providerSessionImageFields, List.mem_append] at h
  rcases h with h | h
  · split at h
    · rename_i message hmessage
      exact FoundAt.of_child (child_of_get? hmessage) (hcontent h)
    · contradiction
  · split at h
    · rename_i result hresult
      rcases List.mem_append.mp h with h | h
      · exact FoundAt.of_child (child_of_get? hresult) (hcontent h)
      · exact FoundAt.of_child (child_of_get? hresult) (foundAt_fileImage h)
    · contradiction

end Found

/-! ## Values with texts emptied -/

section Emptied

def emptiness : Json.Visitor (Json → Prop) where
  null j := j = .null
  bool b j := j = .bool b
  int n j := j = .int n
  float text j := j = .float text
  str s j := j = .str s ∨ j = .str ""
  arr tests j := ∃ items, j = .arr items ∧ List.Forall₂ (fun test item => test item) tests items
  obj tests j := ∃ members, j = .obj members ∧
    List.Forall₂ (fun test m => test.1 = m.1 ∧ test.2 m.2) tests members

/-- The second value is the first with some texts emptied. -/
def Emptied (j j' : Json) : Prop := emptiness.visit j j'

/-- `Emptied` for the members of an object. -/
def EmptiedMembers (members members' : Members) : Prop :=
  List.Forall₂ (fun m m' => m.1 = m'.1 ∧ Emptied m.2 m'.2) members members'

variable {fmt : FloatFormat} {j j' : Json} {members members' : Members}

theorem emptied_arr {items : List Json} :
    Emptied (.arr items) j' ↔ ∃ items', j' = .arr items' ∧ List.Forall₂ Emptied items items' := by
  rw [Emptied, Json.Visitor.visit_arr]
  simp only [emptiness, List.forall₂_map_left_iff]
  rfl

theorem emptied_obj :
    Emptied (.obj members) j' ↔ ∃ members', j' = .obj members' ∧
      EmptiedMembers members members' := by
  rw [Emptied, Json.Visitor.visit_obj]
  simp only [emptiness, List.forall₂_map_left_iff]
  rfl

theorem emptied_refl (j : Json) : Emptied j j := by
  induction j using Json.induct with
  | null | bool | int | float => rfl
  | str s => exact .inl rfl
  | arr items ih => exact emptied_arr.mpr ⟨items, rfl, List.forall₂_same.mpr ih⟩
  | obj members ih =>
    exact emptied_obj.mpr ⟨members, rfl, List.forall₂_same.mpr fun m hm => ⟨rfl, ih m hm⟩⟩

theorem forall₂_set {α : Type} {R : α → α → Prop} (hrefl : ∀ a, R a a) {items : List α} {i : Nat}
    {a b : α} (hget : items[i]? = some a) (h : R a b) : List.Forall₂ R items (items.set i b) := by
  induction items generalizing i with
  | nil => contradiction
  | cons item items ih =>
    cases i with
    | zero =>
      obtain rfl := Option.some.inj hget
      exact .cons h (List.forall₂_same.mpr fun a _ => hrefl a)
    | succ i => exact .cons (hrefl item) (ih hget)

/-- A child is replaced by one with texts emptied. -/
theorem emptied_setChild {part : Json.Part} {k k' : Json} (hproper : Json.Proper fmt j)
    (hchild : Json.child part j = some k) (h : Emptied k k') :
    Emptied j (Json.setChild part k' j) := by
  obtain ⟨name, members, rfl, rfl, hlookup⟩ | ⟨position, items, rfl, rfl, -, hget⟩ :=
    Json.child_eq_some hchild
  · obtain ⟨hkeys, -⟩ := Json.proper_obj.mp hproper
    refine emptied_obj.mpr ⟨_, rfl, ?_⟩
    rw [EmptiedMembers, List.forall₂_map_right_iff, List.forall₂_same]
    intro m hm
    refine ⟨rfl, ?_⟩
    by_cases hname : m.1 = name
    · have hm' := (Json.lookup_eq_some_iff_mem hkeys).mpr hm
      rw [hname, hlookup] at hm'
      rw [if_pos hname, ← Option.some.inj hm']
      exact h
    · rw [if_neg hname]
      exact emptied_refl m.2
  · exact emptied_arr.mpr ⟨_, rfl, forall₂_set emptied_refl hget h⟩

theorem emptied_of_replaceAt {expected : String} {path : List Json.Part}
    (hproper : Json.Proper fmt j) (h : Json.replaceAt expected "" path j = some j') :
    Emptied j j' := by
  induction path generalizing j j' with
  | nil =>
    obtain ⟨rfl, rfl⟩ := Json.replaceAt_nil.mp h
    exact .inr rfl
  | cons part path ih =>
    obtain ⟨k, k', hchild, hreplace, rfl⟩ := Json.replaceAt_cons.mp h
    exact emptied_setChild hproper hchild (ih (hproper.child hchild) hreplace)

theorem forall₂_trans {α : Type} {R : α → α → Prop} {as bs cs : List α}
    (htrans : ∀ a ∈ as, ∀ b c, R a b → R b c → R a c) (h : List.Forall₂ R as bs)
    (h' : List.Forall₂ R bs cs) : List.Forall₂ R as cs := by
  induction h generalizing cs with
  | nil => exact h'
  | cons hab _ ih =>
    obtain ⟨c, rest, hbc, hrest, rfl⟩ := List.forall₂_cons_left_iff.mp h'
    rw [List.forall_mem_cons] at htrans
    exact .cons (htrans.1 _ c hab hbc) (ih htrans.2 hrest)

theorem Emptied.trans {j'' : Json} (h : Emptied j j') (h' : Emptied j' j'') : Emptied j j'' := by
  induction j using Json.induct generalizing j' j'' with
  | null | bool | int | float =>
    obtain rfl := h
    exact h'
  | str s =>
    rcases h with rfl | rfl
    · exact h'
    · rcases h' with rfl | rfl <;> exact .inr rfl
  | arr items ih =>
    obtain ⟨items', rfl, hitems⟩ := emptied_arr.mp h
    obtain ⟨items'', rfl, hitems'⟩ := emptied_arr.mp h'
    exact emptied_arr.mpr ⟨items'', rfl, forall₂_trans
      (fun item hitem b c hb hc => ih item hitem hb hc) hitems hitems'⟩
  | obj members ih =>
    obtain ⟨members', rfl, hmembers⟩ := emptied_obj.mp h
    obtain ⟨members'', rfl, hmembers'⟩ := emptied_obj.mp h'
    exact emptied_obj.mpr ⟨members'', rfl, forall₂_trans
      (fun m hm b c hb hc => ⟨hb.1.trans hc.1, ih m hm hb.2 hc.2⟩) hmembers hmembers'⟩

theorem emptied_of_emptyAll {fields : List ImageField} (hproper : Json.Proper fmt j)
    (h : emptyAll fields j = some j') : Emptied j j' := by
  induction fields generalizing j with
  | nil =>
    obtain rfl := Option.some.inj h
    exact emptied_refl j
  | cons field fields ih =>
    obtain ⟨next, hreplace, h⟩ := emptyAll_cons.mp h
    exact (emptied_of_replaceAt hproper hreplace).trans (ih (hproper.replaceAt hreplace) h)

/-! What is in the emptied value was there before. -/

theorem Emptied.of_str {s : String} (h : Emptied j (.str s)) (hne : s ≠ "") : j = .str s := by
  cases j with
  | str t =>
    rcases h with h | h
    · exact h.symm
    · exact absurd (Json.str.inj h) hne
  | arr items =>
    obtain ⟨items', h, -⟩ := emptied_arr.mp h
    contradiction
  | obj members =>
    obtain ⟨members', h, -⟩ := emptied_obj.mp h
    contradiction
  | _ => contradiction

theorem Emptied.of_obj (h : Emptied j (.obj members')) :
    ∃ members, j = .obj members ∧ EmptiedMembers members members' := by
  cases j with
  | obj members =>
    obtain ⟨others, heq, h⟩ := emptied_obj.mp h
    obtain rfl := Json.obj.inj heq
    exact ⟨members, rfl, h⟩
  | arr items =>
    obtain ⟨items', h, -⟩ := emptied_arr.mp h
    contradiction
  | str t => rcases h with h | h <;> contradiction
  | _ => contradiction

theorem EmptiedMembers.lookup (h : EmptiedMembers members members') {key : String} {value' : Json}
    (hlookup : members'.lookup key = some value') :
    ∃ value, members.lookup key = some value ∧ Emptied value value' := by
  unfold EmptiedMembers at h
  induction h with
  | nil => contradiction
  | @cons m m' rest rest' hm _ ih =>
    rw [List.lookup_cons] at hlookup ⊢
    rw [← hm.1] at hlookup
    split at hlookup
    · obtain rfl := Option.some.inj hlookup
      exact ⟨m.2, rfl, hm.2⟩
    · exact ih hlookup

theorem EmptiedMembers.lookup_str (h : EmptiedMembers members members') {key s : String}
    (hne : s ≠ "") (hlookup : members'.lookup key = some (.str s)) :
    members.lookup key = some (.str s) := by
  obtain ⟨value, hvalue, hemptied⟩ := h.lookup hlookup
  rw [hvalue, hemptied.of_str hne]

end Emptied

/-! ## What is found after emptying -/

section Refound

variable {members members' : Members}

theorem encodedImage_of_emptied (h : EmptiedMembers members members') {first second : String}
    {r : String × String}
    (hr : encodedImage (members'.lookup first) (members'.lookup second) = some r) :
    encodedImage (members.lookup first) (members.lookup second) = some r := by
  obtain ⟨hmedia, hdata, htype, hne⟩ := encodedImage_eq_some hr
  have htype' : r.1 ≠ "" := by
    intro hempty
    rw [hempty] at htype
    revert htype
    decide
  rw [h.lookup_str htype' hmedia, h.lookup_str hne hdata, encodedImage_of htype hne]

theorem sourceImage_of_emptied (h : EmptiedMembers members members') {r : String × String}
    (hr : sourceImage members' = some r) : sourceImage members = some r := by
  unfold sourceImage at hr
  split at hr
  · rename_i source' hsource'
    split_ifs at hr with htype
    obtain ⟨source, hsource, hemptied⟩ := h.lookup hsource'
    obtain ⟨source, rfl, hmembers⟩ := hemptied.of_obj
    rw [sourceImage, hsource]
    dsimp only
    rw [if_pos (hmembers.lookup_str (by decide) htype)]
    exact encodedImage_of_emptied hmembers hr
  · contradiction

/-- The field was found before, or it is the flat image of a block whose source image was. -/
def Refound (fields : List ImageField) (field : ImageField) : Prop :=
  field ∈ fields ∨ ∃ location mediaType value, field.path = location ++ [.key "data"] ∧
    ⟨location ++ [.key "source", .key "data"], mediaType, value⟩ ∈ fields

theorem Refound.mono {fields fields' : List ImageField} {field : ImageField}
    (hsub : fields ⊆ fields') (h : Refound fields field) : Refound fields' field := by
  rcases h with h | ⟨location, mediaType, value, hpath, h⟩
  · exact .inl (hsub h)
  · exact .inr ⟨location, mediaType, value, hpath, hsub h⟩

theorem refound_blockImage (h : EmptiedMembers members members') {location : List Json.Part}
    {field : ImageField} (hfield : field ∈ blockImage location members') :
    Refound (blockImage location members) field := by
  unfold blockImage at hfield
  split at hfield
  · rename_i mediaType value hsource
    rw [blockImage, sourceImage_of_emptied h hsource]
    exact .inl hfield
  · split at hfield
    · rename_i mediaType value hflat
      have hflat := encodedImage_of_emptied h hflat
      obtain rfl := List.mem_singleton.mp hfield
      cases hsource : sourceImage members with
      | some r =>
        -- the source image hid the flat one
        refine .inr ⟨location, r.1, r.2, rfl, ?_⟩
        simp [blockImage, hsource]
      | none =>
        refine .inl ?_
        simp [blockImage, hsource, flatImage, hflat]
    · contradiction

theorem refound_imageItems {items items' : List Json} (h : List.Forall₂ Emptied items items')
    (hblock : ∀ j ∈ items, ∀ j', Emptied j j' → ∀ location, ∀ field ∈ imageBlock location j',
      Refound (imageBlock location j) field)
    {path : List Json.Part} {index : Nat} {field : ImageField}
    (hfield : field ∈ imageItems path index items') :
    Refound (imageItems path index items) field := by
  induction h generalizing index with
  | nil => simp [imageItems] at hfield
  | cons hitem _ ih =>
    rw [List.forall_mem_cons] at hblock
    rw [imageItems, List.mem_append] at hfield
    rw [imageItems]
    rcases hfield with hfield | hfield
    · exact (hblock.1 _ hitem _ field hfield).mono (List.subset_append_left _ _)
    · exact (ih hblock.2 hfield).mono (List.subset_append_right _ _)

theorem refound_imageContent (h : EmptiedMembers members members')
    (hblocks : ∀ m ∈ members, ∀ j', Emptied m.2 j' → ∀ path, ∀ field ∈ imageBlocks path j',
      Refound (imageBlocks path m.2) field)
    {path : List Json.Part} {field : ImageField} (hfield : field ∈ imageContent path members') :
    Refound (imageContent path members) field := by
  rw [imageContent_eq] at hfield ⊢
  cases hlookup' : members'.lookup "content" with
  | none => simp [hlookup'] at hfield
  | some content' =>
    obtain ⟨content, hlookup, hemptied⟩ := h.lookup hlookup'
    rw [hlookup'] at hfield
    rw [hlookup]
    exact hblocks _ (Json.mem_of_lookup hlookup) content' hemptied path field hfield

theorem refound_image (j : Json) :
    (∀ j', Emptied j j' → ∀ path, ∀ field ∈ imageBlocks path j',
      Refound (imageBlocks path j) field) ∧
    ∀ j', Emptied j j' → ∀ location, ∀ field ∈ imageBlock location j',
      Refound (imageBlock location j) field := by
  induction j using Json.induct with
  | null | bool | int | float =>
    constructor
    all_goals
      rintro j' rfl path field hfield
      exact .inl hfield
  | str s =>
    constructor
    all_goals
      rintro j' (rfl | rfl) path field hfield
      · exact .inl hfield
      · exact .inl hfield
  | arr items ih =>
    constructor
    · intro j' h path field hfield
      obtain ⟨items', rfl, hitems⟩ := emptied_arr.mp h
      rw [imageBlocks] at hfield ⊢
      exact refound_imageItems hitems (fun j hj => (ih j hj).2) hfield
    · intro j' h location field hfield
      obtain ⟨items', rfl, -⟩ := emptied_arr.mp h
      simp [imageBlock] at hfield
  | obj members ih =>
    constructor
    · intro j' h path field hfield
      obtain ⟨members', rfl, -⟩ := emptied_obj.mp h
      simp [imageBlocks] at hfield
    · intro j' h location field hfield
      obtain ⟨members', rfl, hmembers⟩ := emptied_obj.mp h
      rw [imageBlock] at hfield ⊢
      split_ifs at hfield with himage hresult
      · rw [if_pos (hmembers.lookup_str (by decide) himage)]
        exact refound_blockImage hmembers hfield
      · have hresult' := hmembers.lookup_str (by decide) hresult
        rw [if_neg (by simp [hresult']), if_pos hresult']
        exact refound_imageContent hmembers (fun m hm => (ih m hm).1) hfield
      · contradiction

theorem refound_fileImage (h : EmptiedMembers members members') {field : ImageField}
    (hfield : field ∈ fileImage members') : field ∈ fileImage members := by
  unfold fileImage at hfield
  split at hfield
  · rename_i file' hfile'
    split_ifs at hfield with htype
    · split at hfield
      · rename_i mediaType value himage
        obtain ⟨file, hfile, hemptied⟩ := h.lookup hfile'
        obtain ⟨file, rfl, hmembers⟩ := hemptied.of_obj
        have himage := encodedImage_of_emptied hmembers himage
        simpa [fileImage, hfile, h.lookup_str (by decide) htype, himage] using hfield
      · contradiction
    · contradiction
  · contradiction

theorem Emptied.get? {j j' : Json} (h : Emptied j j') {key : String}
    (hget : j'.get? key = some (.obj members')) :
    ∃ members, j.get? key = some (.obj members) ∧ EmptiedMembers members members' := by
  cases j' with
  | obj others' =>
    obtain ⟨others, rfl, hothers⟩ := h.of_obj
    obtain ⟨value, hvalue, hemptied⟩ := hothers.lookup hget
    obtain ⟨members, rfl, hmembers⟩ := hemptied.of_obj
    exact ⟨members, hvalue, hmembers⟩
  | _ => contradiction

theorem refound_providerSessionImageFields {j j' : Json} (h : Emptied j j') {field : ImageField}
    (hfield : field ∈ providerSessionImageFields j') :
    Refound (providerSessionImageFields j) field := by
  have hcontent : ∀ {path : List Json.Part} {members members' : Members},
      EmptiedMembers members members' → field ∈ imageContent path members' →
        Refound (imageContent path members) field :=
    fun h hfield => refound_imageContent h (fun m _ => (refound_image m.2).1) hfield
  rw [providerSessionImageFields, List.mem_append] at hfield
  rw [providerSessionImageFields]
  rcases hfield with hfield | hfield
  · split at hfield
    · rename_i message' hmessage'
      obtain ⟨message, hmessage, hmembers⟩ := h.get? hmessage'
      rw [hmessage]
      exact (hcontent hmembers hfield).mono (List.subset_append_left _ _)
    · contradiction
  · split at hfield
    · rename_i result' hresult'
      obtain ⟨result, hresult, hmembers⟩ := h.get? hresult'
      rw [hresult]
      refine Refound.mono (List.subset_append_right _ _) ?_
      rcases List.mem_append.mp hfield with hfield | hfield
      · exact (hcontent hmembers hfield).mono (List.subset_append_left _ _)
      · exact .inl (List.mem_append_right _ (refound_fileImage hmembers hfield))
    · contradiction

end Refound

/-! ## Splitting and restoring -/

/-- Every image field is empty, and an image is found only as the flat image of a block whose source
image was taken out. -/
def ImagesTaken (entry projected : Json) : Prop :=
  (∀ field ∈ providerSessionImageFields entry,
    Json.readAt field.path projected = some (.str "")) ∧
  ∀ field ∈ providerSessionImageFields projected,
    ∃ location mediaType value, field.path = location ++ [.key "data"] ∧
      ⟨location ++ [.key "source", .key "data"], mediaType, value⟩ ∈
        providerSessionImageFields entry

theorem imagesTaken_of_emptyAll {fmt : FloatFormat} {entry projected : Json}
    (hproper : Json.Proper fmt entry)
    (h : emptyAll (providerSessionImageFields entry) entry = some projected) :
    ImagesTaken entry projected := by
  obtain ⟨-, hempty⟩ := readAt_emptyAll h
  refine ⟨hempty, fun field hfield => ?_⟩
  rcases refound_providerSessionImageFields (emptied_of_emptyAll hproper h) hfield with
    hbefore | hsecond
  · -- a field found before is empty now, and empty fields are not found
    obtain ⟨rest, hpath, hread, hne⟩ := foundAt_providerSessionImageFields hfield
    rw [List.nil_append] at hpath
    rw [← hpath, hempty field hbefore] at hread
    exact absurd (Json.str.inj (Option.some.inj hread)).symm hne
  · exact hsecond

/-- Restoring the entries with what was recorded gives the entries back, if the digest tells their
images apart. In between every image is taken out but the flat ones of blocks with a source. -/
theorem split_then_restore {rt : Runtime} {entries : List Json}
    {projection : ProviderMediaProjection} {ids : String → String} {values : ImageValues}
    (hproper : ∀ entry ∈ entries, Json.Proper rt.floats entry)
    (h : splitProviderImages rt providerSessionImageFields entries = .ok projection)
    (hbound : Bound projection.images ids values)
    (separates : rt.Separates (fieldTexts (entries.flatMap providerSessionImageFields))
      (fieldTexts (entries.flatMap providerSessionImageFields))) :
    (projection.entries.zip projection.references).mapM (fun item =>
        restoreProviderImages rt values item.1
          (item.2.map fun ref => ref.withId (ids ref.sha256))) = .ok entries ∧
      List.Forall₂ ImagesTaken entries projection.entries := by
  have hempty : Stored rt (fieldTexts (entries.flatMap providerSessionImageFields)) [] :=
    fun _ hmem => absurd hmem List.not_mem_nil
  obtain ⟨hstored, -, hlength, hall⟩ :=
    recorded_of_splitEntries (Nat.zero_le _) (List.Subset.refl _) hempty h
  have htexts : ∀ entry ∈ entries, fieldTexts (providerSessionImageFields entry) ⊆
      fieldTexts (entries.flatMap providerSessionImageFields) := fun entry hentry =>
    List.map_subset _ fun _ hfield => List.mem_flatMap_of_mem hentry hfield
  have hall := (List.forall₂_and_left _ _).mpr
    ⟨fun entry hentry => And.intro (hproper entry hentry) (htexts entry hentry), hall⟩
  constructor
  · rw [mapM_eq_ok]
    refine List.Forall₂.flip (hall.imp ?_)
    rintro entry item ⟨⟨hproper, htexts⟩, hrecorded⟩
    refine hrecorded.restores separates hbound hstored htexts (fun field hfield => ?_) hproper
    obtain ⟨rest, -, -, hne⟩ := foundAt_providerSessionImageFields hfield
    exact hne
  · rw [← List.map_fst_zip hlength.le, List.forall₂_map_right_iff]
    exact hall.imp fun entry item h => imagesTaken_of_emptyAll h.1.1 h.2.emptied

/-- An entry with one image, which its id brings back. -/
def singleImage : Json :=
  .obj [("message", .obj [("content", .arr [.obj [("type", .str "image"),
    ("source", .obj [("type", .str "base64"), ("media_type", .str "image/png"),
      ("data", .str "iVBO")])]])])]

def singleProjection : ProviderMediaProjection where
  entries := [.obj [("message", .obj [("content", .arr [.obj [("type", .str "image"),
    ("source", .obj [("type", .str "base64"), ("media_type", .str "image/png"),
      ("data", .str "")])]])])]]
  references := [[⟨[.key "message", .key "content", .index 0, .key "source", .key "data"],
    "iVBO", 4⟩]]
  images := [("iVBO", ⟨"iVBO", [105, 86, 66, 79], "image/png"⟩)]

theorem singleImage_restored :
    splitProviderImages .plain providerSessionImageFields [singleImage] = .ok singleProjection ∧
      (singleProjection.entries.zip singleProjection.references).mapM (fun item =>
        restoreProviderImages .plain [("psi_1", "iVBO")] item.1
          (item.2.map fun ref => ref.withId "psi_1")) = .ok [singleImage] := by
  have hsplit : splitProviderImages .plain providerSessionImageFields [singleImage] =
      .ok singleProjection := by
    decide +kernel
  have hproper : Json.Proper Runtime.plain.floats singleImage := by
    have hstr : ∀ s, Json.Proper Runtime.plain.floats (.str s) := fun _ => trivial
    simp [singleImage, Json.proper_obj, Json.proper_arr, hstr]
  have hbound : Bound singleProjection.images (fun _ => "psi_1") [("psi_1", "iVBO")] := by
    rintro image himage
    obtain rfl := List.mem_singleton.mp himage
    exact ⟨by decide, "iVBO", rfl, by decide +kernel⟩
  exact ⟨hsplit, (split_then_restore (List.forall_mem_singleton.mpr hproper) hsplit hbound
    fun _ _ _ _ heq => String.ofList_injective heq).1⟩

/-! A block with an image in each of the two forms keeps the second one. -/

def doubleImage : Json :=
  .obj [("message", .obj [("content", .arr [.obj [("type", .str "image"),
    ("source", .obj [("type", .str "base64"), ("media_type", .str "image/png"),
      ("data", .str "iVBO")]),
    ("mimeType", .str "image/png"), ("data", .str "R0lG")]])])]

theorem doubleImage_keeps_second :
    (splitProviderImages .plain providerSessionImageFields [doubleImage]).map
        (fun projection => projection.entries.flatMap providerSessionImageFields) =
      .ok [⟨[.key "message", .key "content", .index 0, .key "data"], "image/png", "R0lG"⟩] := by
  decide +kernel

end AiPlatform.Context.ImageSplit
