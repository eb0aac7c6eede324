import Routing.Http.Response

/-!
# Filling a response

A response that is filled takes its status and its body from what it is filled with, whatever was
in it before, and keeps its phrase, its version and all header fields but the media type. The media
type is set if there is a body and the type is legal. Otherwise the field is left as it is, so that
a type that an earlier call has set stays behind: a response without content may have one, and
filling twice need not be the same as filling once.

* `fill_eq`: all of the response.
* `fill_spec`: what it takes from the arguments, and when the media type is left over.
-/

namespace Routing.Response

/-- The media type that goes with a body: none if there is no body, or the type is not a legal
header value. -/
def mediaType? (body : Bytes) (contentType : String) : Option HeaderValue :=
  if body = [] then none else HeaderValue.ofString? contentType

/-- The media type of a response. -/
def contentType? (r : Response) : Option HeaderValue :=
  r.headers.value? .contentType

/-- The header fields with a media type, if there is one. -/
def withType (h : Headers) : Option HeaderValue → Headers
  | some v => h.insert .contentType v
  | none => h

theorem value?_withType (h : Headers) (type? : Option HeaderValue) (name : HeaderName) :
    (withType h type?).value? name
      = if name = .contentType then type?.or (h.value? name) else h.value? name := by
  have hname : name.text = HeaderName.contentType.text ↔ name = .contentType := by
    cases name
    exact ⟨congrArg HeaderName.mk, congrArg HeaderName.text⟩
  cases type? with
  | none => simp [withType]
  | some v =>
    unfold withType Headers.insert Headers.value?
    rw [Dict.get?_set]
    simp only [hname, Option.some_or]

/-- **What filling makes of a response.** -/
theorem fill_eq (r : Response) (body : Bytes) (contentType : String) :
    (r.fill body contentType).1
      = { r with
          status := if body = [] then .noContent else .ok
          headers := withType r.headers (mediaType? body contentType)
          body := body } := by
  unfold fill mediaType?
  cases body with
  | nil => rfl
  | cons b bs =>
    cases htype : HeaderValue.ofString? contentType with
    | none => simp [withType, setStatus, setBody]
    | some v => simp [withType, setStatus, setBody, setHeader]

theorem contentType?_fill (r : Response) (body : Bytes) (contentType : String) :
    (r.fill body contentType).1.contentType?
      = (mediaType? body contentType).or r.contentType? := by
  rw [fill_eq]
  exact (value?_withType r.headers _ _).trans (if_pos rfl)

/-- A media type in place of one that is set is the same as that type alone. -/
theorem withType_withType_eq_iff (h : Headers) (type? type'? : Option HeaderValue) :
    withType (withType h type?) type'? = withType h type'?
      ↔ type'?.isSome = true ∨ type? = none ∨ type? = h.value? .contentType := by
  have hext : ∀ {g g' : Headers}, g = g' ↔ ∀ name, g.value? name = g'.value? name := by
    refine fun {g g'} => ⟨fun he name => by rw [he], fun hall => Dict.ext_get? fun k => ?_⟩
    exact hall ⟨k⟩
  have hrest : withType (withType h type?) type'? = withType h type'?
      ↔ type'?.or (type?.or (h.value? .contentType)) = type'?.or (h.value? .contentType) := by
    refine hext.trans ⟨fun hall => ?_, fun heq name => ?_⟩
    · simpa [value?_withType] using hall .contentType
    · by_cases hname : name = .contentType
      · subst hname
        simpa [value?_withType] using heq
      · simp [value?_withType, hname]
  rw [hrest]
  cases type'? with
  | some v => simp
  | none =>
    cases type? with
    | none => simp
    | some v => simp

/-- **What filling does to a response**, whatever was in it. Its status and body are those of the
arguments; its phrase, its version and all header fields but the media type stay. The media type is
that of the arguments if they have one, and else what was there before: it depends on the arguments
only iff they have one or none was there. Filling twice leaves what filling once does iff the second
time sets a media type, or the first leaves the one that was there. -/
theorem fill_spec (r : Response) (body : Bytes) (contentType : String) :
    let r' := (r.fill body contentType).1
    r'.status = (if body = [] then .noContent else .ok) ∧ r'.body = body ∧
      r'.reason = r.reason ∧ r'.version = r.version ∧
      (∀ name, name ≠ .contentType → r'.headers.value? name = r.headers.value? name) ∧
      r'.contentType? = (mediaType? body contentType).or r.contentType? ∧
      (r'.contentType? = mediaType? body contentType
        ↔ (mediaType? body contentType).isSome = true ∨ r.contentType? = none) ∧
      ∀ body' contentType', (r'.fill body' contentType').1 = (r.fill body' contentType').1
        ↔ (mediaType? body' contentType').isSome = true ∨ mediaType? body contentType = none ∨
          mediaType? body contentType = r.contentType? := by
  intro r'
  have htype : r'.contentType? = (mediaType? body contentType).or r.contentType? :=
    contentType?_fill r body contentType
  have hr' : r' = _ := fill_eq r body contentType
  refine ⟨by rw [hr'], by rw [hr'], by rw [hr'], by rw [hr'], fun name hname => ?_, htype, ?_,
    fun body' contentType' => ?_⟩
  · rw [hr']
    exact (value?_withType r.headers _ _).trans (if_neg hname)
  · rw [htype]
    cases mediaType? body contentType with
    | none => simp
    | some v => simp
  · refine Iff.trans ?_ (withType_withType_eq_iff r.headers (mediaType? body contentType)
      (mediaType? body' contentType'))
    rw [fill_eq r', fill_eq r, hr']
    simp

/-- A field that is not the media type stays beside the one that is set. -/
theorem fill_spec_server :
    let r := ({} : Response).setHeader .server ⟨"name", by decide⟩
    let r' := (r.fill (Text.Utf8.encode "hello") "text/plain").1
    HeaderName.server ≠ .contentType ∧ r'.headers.value? .server = some ⟨"name", by decide⟩ ∧
      r'.contentType? = some ⟨"text/plain", by decide⟩ := by
  intro r r'
  obtain ⟨-, -, -, -, hrest, htype, -⟩ := fill_spec r (Text.Utf8.encode "hello") "text/plain"
  have hname : HeaderName.server ≠ .contentType := by decide
  refine ⟨hname, (hrest _ hname).trans ?_, htype.trans ?_⟩
  · decide
  · decide +kernel

/-- A media type of an earlier body is left over without content, and with a type that is not
legal. -/
theorem fill_leaves_type :
    let r := (({} : Response).fill (Text.Utf8.encode "hello") "text/plain").1
    let body := Text.Utf8.encode "bye"
    (r.fill [] "text/plain").1.status = .noContent ∧
      (r.fill [] "text/plain").1.contentType? = some ⟨"text/plain", by decide⟩ ∧
      (r.fill [] "text/plain").1 ≠ (({} : Response).fill [] "text/plain").1 ∧
      HeaderValue.ofString? "text\n" = none ∧
      (r.fill body "text\n").1.contentType? = some ⟨"text/plain", by decide⟩ := by
  intro r body
  have hempty : (r.fill [] "text/plain").1.contentType? = some ⟨"text/plain", by decide⟩ := by
    decide +kernel
  refine ⟨rfl, hempty, fun heq => ?_, by decide, by decide +kernel⟩
  rw [heq] at hempty
  exact absurd hempty (by decide +kernel)

end Routing.Response
