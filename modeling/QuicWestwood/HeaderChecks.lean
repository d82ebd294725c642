import QuicWestwood.HeaderDecodeInfo

/-! Each pseudo-header and each regular header passes under a condition on the field and on a few flags of the
state, and otherwise leaves an error that the end of the block reports. -/
namespace QuicWestwood.HTTP
open ByteCodec CodecUtil HeaderDecodeInfo

section
variable (parseURL : Bytes → Bool) (settings : DecodeSettings)

def pseudoOk (field : HPACKHeader) : Bool :=
  match headerCode field.name with
  | .colonMethod => validateMethod field.value
  | .colonScheme => validateScheme field.value
  | .colonAuthority => valueOk settings field.value
  | .colonPath =>
    validateURL (if settings.strictValidation then .strict else .strictCompat) field.value &&
      !(settings.strictValidation && !(settings.allowEmptyPath && field.value = []) && !parseURL field.value)
  | .colonProtocol => !(settings.strictValidation && !validateHeaderValue .strict field.value)
  | _ => false

def regularOk (field : HPACKHeader) : Bool :=
  headerCode field.name != .connection && nameOk settings field.name && valueOk settings field.value

def FieldOk (field : HPACKHeader) : Prop :=
  if startsWithColon field.name then pseudoOk parseURL settings field else regularOk settings field

end

lemma headerCode_eq_iff {name : Bytes} (entry : String × HTTPHeaderCode) (h : entry ∈ distinguishedHeaders) :
    headerCode name = entry.2 ↔ name = ascii entry.1 := by
  constructor
  · intro hcode
    unfold headerCode at hcode
    cases hfind : distinguishedHeaders.find? fun e => ascii e.1 = name with
    | none =>
      have hspecial : ∀ e ∈ distinguishedHeaders,HTTPHeaderCode.common≠e.2 ∧ .other≠e.2 := by decide
      simp only [hfind] at hcode
      split_ifs at hcode
      · exact absurd hcode (hspecial entry h).1
      · exact absurd hcode (hspecial entry h).2
    | some found =>
      simp only [hfind] at hcode
      have hname := List.find?_some hfind
      have hmem := List.mem_of_find?_eq_some hfind
      have hinj : ∀ e ∈ distinguishedHeaders,∀ e' ∈ distinguishedHeaders,e.2 = e'.2 → e=e' := by decide
      rw [← hinj found hmem entry h hcode]
      exact (of_decide_eq_true hname).symm
  · rintro rfl
    have hall : ∀ e ∈ distinguishedHeaders,headerCode (ascii e.1) = e.2 := by decide +kernel
    exact hall entry h

def requestPseudo : List (String × HTTPHeaderCode) := [
  (":method",.colonMethod),(":scheme",.colonScheme),(":authority",.colonAuthority),
  (":path",.colonPath),(":protocol",.colonProtocol)]

lemma stringToMethod_eq_connect_iff (method : Bytes) :
    stringToMethod method = some .connect ↔ caseInsensitiveEqual (ascii "CONNECT") method = true := by
  unfold stringToMethod
  constructor
  · intro h
    obtain ⟨entry,hfind,hentry⟩ := Option.map_eq_some_iff.mp h
    have honly : ∀ e ∈ methodStrings,e.2 = .connect → e.1 = "CONNECT" := by decide
    rw [← honly entry (List.mem_of_find?_eq_some hfind) hentry]
    have hfound := List.find?_some (p := fun e : String × HTTPMethod => caseInsensitiveEqual (ascii e.1) method) hfind
    exact hfound
  · intro h
    have hname := of_decide_eq_true h
    unfold caseInsensitiveEqual
    simp only [← hname]
    decide +kernel

namespace HTTPRequestVerifier

def holds (v : HTTPRequestVerifier) : HTTPHeaderCode → Bool
  | .colonMethod => v.hasMethod
  | .colonScheme => v.hasScheme
  | .colonAuthority => v.hasAuthority
  | .colonPath => v.hasPath
  | .colonProtocol => v.hasUpgradeProtocol
  | _ => false

def taken (v : HTTPRequestVerifier) (field : HPACKHeader) : HTTPRequestVerifier :=
  match headerCode field.name with
  | .colonMethod => {v with hasMethod := true, msg := v.msg.setMethod field.value}
  | .colonScheme => {v with hasScheme := true, msg := v.msg.setScheme field.value}
  | .colonAuthority => {v with hasAuthority := true, msg := v.msg.addHeader ⟨ascii "host",field.value⟩}
  | .colonPath => {v with hasPath := true, msg := {v.msg with url := field.value}}
  | .colonProtocol => {v with hasUpgradeProtocol := true, msg := {v.msg with upgradeProtocol := some field.value}}
  | _ => v

/-- A setter that takes a value under the condition `ok` and records an error otherwise. -/
def Takes (ok : Prop) (result : Bool × HTTPRequestVerifier) (v : HTTPRequestVerifier) : Prop :=
  (ok → result.2=v) ∧ (¬ok → result.2.error≠[])

variable (v : HTTPRequestVerifier)

lemma append_ne_nil {text : String} (h : text ≠ "") (value : Bytes) : ascii text++value≠[] := by
  simp [ascii_ne_nil h]

lemma takes_ite {dup bad : Bool} {error error' : Bytes} {v' : HTTPRequestVerifier} (h : error≠[]) (h' : error'≠[]) :
    Takes (dup=false ∧ bad=false)
      (if dup then v.refuse error else if bad then v.refuse error' else (true,v')) v' := by
  unfold Takes
  cases dup <;> cases bad <;> simp [refuse,h,h']

lemma setMethod_takes (method : Bytes) :
    Takes (v.hasMethod=false ∧ (!validateMethod method) = false) (v.setMethod method)
      {v with hasMethod := true, msg := v.msg.setMethod method} :=
  takes_ite v (ascii_ne_nil (by simp)) (append_ne_nil (by simp) method)

lemma setScheme_takes (scheme : Bytes) :
    Takes (v.hasScheme=false ∧ (!validateScheme scheme) = false) (v.setScheme scheme)
      {v with hasScheme := true, msg := v.msg.setScheme scheme} :=
  takes_ite v (ascii_ne_nil (by simp)) (append_ne_nil (by simp) scheme)

lemma setAuthority_takes (authority : Bytes) (validate strict : Bool) :
    Takes (v.hasAuthority=false ∧
        (validate && !validateHeaderValue (if strict then .strict else .strictCompat) authority) = false)
      (v.setAuthority authority validate strict)
      {v with hasAuthority := true, msg := v.msg.addHeader ⟨ascii "host",authority⟩} :=
  takes_ite v (ascii_ne_nil (by simp)) (append_ne_nil (by simp) authority)

lemma setUpgradeProtocol_takes (protocol : Bytes) (strict : Bool) :
    Takes (v.hasUpgradeProtocol=false ∧ (strict && !validateHeaderValue .strict protocol) = false)
      (v.setUpgradeProtocol protocol strict)
      {v with hasUpgradeProtocol := true, msg := {v.msg with upgradeProtocol := some protocol}} :=
  takes_ite v (ascii_ne_nil (by simp)) (append_ne_nil (by simp) protocol)

lemma setPath_takes (parseURL : Bytes → Bool) (path : Bytes) (strict allowEmptyPath : Bool) :
    Takes (v.hasPath=false ∧ (!validateURL (if strict then .strict else .strictCompat) path) = false ∧
        (strict && !(allowEmptyPath && path = []) && !parseURL path) = false)
      (v.setPath parseURL path strict allowEmptyPath)
      {v with hasPath := true, msg := {v.msg with url := path}} := by
  have hne := append_ne_nil (show "Invalid url: " ≠ "" by simp) path
  unfold Takes setPath
  cases v.hasPath
  · cases validateURL (if strict then .strict else .strictCompat) path
    · simp [refuse,hne]
    · by_cases h : (strict && !(allowEmptyPath && path = []) && !parseURL path) = true
      · simp only [h,refuse]
        simp [hne]
      · simp only [h,refuse]
        simp
  · simp only [refuse]
    simp [ascii_ne_nil (show "Duplicate path" ≠ "" by simp)]

variable (field : HPACKHeader)

lemma holds_taken (entry : String × HTTPHeaderCode) (h : entry ∈ requestPseudo) :
    (v.taken field).holds entry.2 = (v.holds entry.2 || headerCode field.name = entry.2) := by
  simp only [requestPseudo,List.mem_cons,List.not_mem_nil,or_false] at h
  unfold taken
  rcases h with rfl | rfl | rfl | rfl | rfl <;> cases hcode : headerCode field.name <;> simp [holds]

lemma valuesOf_taken : (v.taken field).msg.valuesOf .host =
      v.msg.valuesOf .host++if headerCode field.name = .colonAuthority then [field.value] else [] := by
  have hhost : headerCode (ascii "host") = .host := by decide +kernel
  unfold taken
  cases hcode : headerCode field.name with
  | colonAuthority => simp [HTTPMessage.valuesOf_addHeader,hhost]
  | colonMethod => simp
  | colonScheme => simp
  | colonPath | colonProtocol => simp [HTTPMessage.valuesOf]
  | _ => simp

lemma getMethod_taken : (v.taken field).msg.getMethod =
      if headerCode field.name = .colonMethod then stringToMethod field.value else v.msg.getMethod := by
  unfold taken
  cases hcode : headerCode field.name with
  | colonPath | colonProtocol => simp [HTTPMessage.getMethod]
  | _ => simp

lemma error_taken : (v.taken field).error = v.error := by
  unfold taken
  split <;> rfl

end HTTPRequestVerifier

def Dirty (info : HeaderDecodeInfo) : Prop := info.parsingError≠[] ∨ info.verifier.error≠[]

section
variable {parseURL : Bytes → Bool} {info : HeaderDecodeInfo} {field : HPACKHeader}

lemma dirty_reject {error : Bytes} (h : error≠[]) : Dirty (info.reject error).2 := .inl h

lemma onRequestPseudoHeader_of_ok (hvalidate : info.settings.validate=true)
    (hfresh : info.verifier.holds (headerCode field.name) = false) (hok : pseudoOk parseURL info.settings field = true) :
    (onRequestPseudoHeader parseURL info field).2 = info.withVerifier (info.verifier.taken field) := by
  unfold pseudoOk at hok
  unfold onRequestPseudoHeader HTTPRequestVerifier.taken
  cases hcode : headerCode field.name with
  | colonMethod =>
    simp only [hcode] at hok hfresh ⊢
    rw [(info.verifier.setMethod_takes field.value).1 ⟨hfresh,by simp [hok]⟩]
  | colonScheme =>
    simp only [hcode] at hok hfresh ⊢
    rw [(info.verifier.setScheme_takes field.value).1 ⟨hfresh,by simp [hok]⟩]
  | colonAuthority =>
    simp only [hcode,valueOk] at hok hfresh ⊢
    rw [(info.verifier.setAuthority_takes field.value _ _).1 ⟨hfresh,by simpa [hvalidate] using hok⟩]
  | colonPath =>
    simp only [hcode,Bool.and_eq_true,Bool.not_eq_true'] at hok hfresh ⊢
    rw [(info.verifier.setPath_takes parseURL field.value _ _).1 ⟨hfresh,by simp [hok.1],hok.2⟩]
  | colonProtocol =>
    simp only [hcode,Bool.not_eq_true'] at hok hfresh ⊢
    rw [(info.verifier.setUpgradeProtocol_takes field.value _).1 ⟨hfresh,hok⟩]
  | _ => simp [hcode] at hok

lemma onRequestPseudoHeader_of_not_ok (hvalidate : info.settings.validate=true)
    (h : ¬(info.verifier.holds (headerCode field.name) = false ∧ pseudoOk parseURL info.settings field = true)) :
    Dirty (onRequestPseudoHeader parseURL info field).2 := by
  unfold pseudoOk at h
  unfold onRequestPseudoHeader
  cases hcode : headerCode field.name with
  | colonMethod =>
    simp only [hcode] at h ⊢
    exact .inr ((info.verifier.setMethod_takes field.value).2 fun hok => h ⟨hok.1,by simpa using hok.2⟩)
  | colonScheme =>
    simp only [hcode] at h ⊢
    exact .inr ((info.verifier.setScheme_takes field.value).2 fun hok => h ⟨hok.1,by simpa using hok.2⟩)
  | colonAuthority =>
    simp only [hcode,valueOk] at h ⊢
    exact .inr ((info.verifier.setAuthority_takes field.value _ _).2 fun hok =>
      h ⟨hok.1,by simpa [hvalidate] using hok.2⟩)
  | colonPath =>
    simp only [hcode,Bool.and_eq_true,Bool.not_eq_true'] at h ⊢
    exact .inr ((info.verifier.setPath_takes parseURL field.value _ _).2 fun hok =>
      h ⟨hok.1,by simpa using hok.2.1,hok.2.2⟩)
  | colonProtocol =>
    simp only [hcode,Bool.not_eq_true'] at h ⊢
    exact .inr ((info.verifier.setUpgradeProtocol_takes field.value _).2 fun hok => h ⟨hok.1,hok.2⟩)
  | _ => exact dirty_reject (HTTPRequestVerifier.append_ne_nil (by simp) _)

def admitted (info : HeaderDecodeInfo) (field : HPACKHeader) : HeaderDecodeInfo :=
  let info :=
    if headerCode field.name = .contentLength then info.withContentLength (readContentLength field.value) else info
  if headerCode field.name = .host ∧ info.verifier.hasAuthority then info else info.withMsg (info.msg.addHeader field)

/-- A `Host` field repeats the authority and a `Content-Length` field the length before it. -/
def AgreesWith (info : HeaderDecodeInfo) (field : HPACKHeader) : Prop :=
  (headerCode field.name = .host → info.verifier.hasAuthority → info.msg.getSingleOrEmpty .host = field.value) ∧
    (headerCode field.name = .contentLength → ∀ n ∈ info.contentLength,n = readContentLength field.value)

lemma admitted_frame (info : HeaderDecodeInfo) (field : HPACKHeader) :
    (admitted info field).settings = info.settings ∧ (admitted info field).decodeError = info.decodeError ∧
      (admitted info field).parsingError = info.parsingError ∧
      (admitted info field).regularHeaderSeen = info.regularHeaderSeen ∧
      (admitted info field).verifier.error = info.verifier.error ∧
      (∀ code,(admitted info field).verifier.holds code = info.verifier.holds code) ∧
      (admitted info field).msg.getMethod = info.msg.getMethod := by
  unfold admitted
  simp only
  split_ifs <;> refine ⟨rfl,rfl,rfl,rfl,rfl,fun code => ?_,rfl⟩ <;> cases code <;> rfl

lemma admitted_contentLength (info : HeaderDecodeInfo) (field : HPACKHeader) :
    (admitted info field).contentLength =
      if headerCode field.name = .contentLength then some (readContentLength field.value) else info.contentLength := by
  unfold admitted
  simp only
  split_ifs <;> rfl

lemma admitted_host (h : headerCode field.name = .host → info.verifier.hasAuthority=true) :
    (admitted info field).msg.valuesOf .host = info.msg.valuesOf .host := by
  unfold admitted
  simp only
  by_cases hhost : headerCode field.name = .host
  · simp [hhost,h hhost]
  · rw [if_neg fun hboth => hhost hboth.1]
    change (HTTPMessage.addHeader _ field).valuesOf .host = _
    rw [HTTPMessage.valuesOf_addHeader,if_neg hhost,List.append_nil]
    split_ifs <;> rfl

lemma addRegularHeader_of_ok (hname : nameOk info.settings field.name = true)
    (hvalue : valueOk info.settings field.value = true)
    (hhost : headerCode field.name = .host → info.verifier.hasAuthority →
      info.msg.getSingleOrEmpty .host = field.value) :
    (addRegularHeader info field).2 = if headerCode field.name = .host ∧ info.verifier.hasAuthority then info
      else info.withMsg (info.msg.addHeader field) := by
  unfold addRegularHeader
  rw [if_neg (by simp [hname,hvalue])]
  split_ifs with h h'
  · exact absurd (hhost h.1 h.2) h'
  · rfl
  · rfl

lemma addRegularHeader_of_not_ok
    (h : ¬(nameOk info.settings field.name = true ∧ valueOk info.settings field.value = true ∧
      (headerCode field.name = .host → info.verifier.hasAuthority → info.msg.getSingleOrEmpty .host = field.value))) :
    Dirty (addRegularHeader info field).2 := by
  unfold addRegularHeader
  split_ifs with h1 h2 h3
  · exact .inl (HTTPRequestVerifier.append_ne_nil (by simp) _)
  · exact dirty_reject (ascii_ne_nil (by simp))
  · refine absurd ⟨?_,?_,fun _ _ => not_not.mp h3⟩ h
    all_goals simp at h1; simp [h1]
  · refine absurd ⟨?_,?_,fun hhost hauth => absurd ⟨hhost,hauth⟩ h2⟩ h
    all_goals simp at h1; simp [h1]

lemma onRegularHeader_of_ok (hok : regularOk info.settings field = true) (h : AgreesWith info field) :
    (onRegularHeader info field).2 = admitted info field := by
  simp only [regularOk,Bool.and_eq_true,bne_iff_ne] at hok
  obtain ⟨⟨hconnection,hname⟩,hvalue⟩ := hok
  unfold onRegularHeader admitted
  cases hcode : headerCode field.name with
  | connection => exact absurd hcode hconnection
  | contentLength =>
    have hany : (info.contentLength.any fun n => n≠readContentLength field.value) = false := by
      cases hlen : info.contentLength with
      | none => rfl
      | some n => simp [h.2 hcode n hlen]
    simp only [hany,Bool.false_eq_true,if_false,if_true,reduceCtorEq,false_and]
    have hname' : nameOk (info.withContentLength (readContentLength field.value)).settings field.name = true := hname
    rw [addRegularHeader_of_ok hname' hvalue (by simp [hcode]),if_neg (by simp [hcode])]
  | _ =>
    simp only [reduceCtorEq,if_false]
    rw [addRegularHeader_of_ok hname hvalue h.1]
    simp only [hcode,reduceCtorEq,false_and,if_false,true_and]

lemma onRegularHeader_of_not_ok (h : ¬(regularOk info.settings field = true ∧ AgreesWith info field)) :
    Dirty (onRegularHeader info field).2 := by
  unfold onRegularHeader
  cases hcode : headerCode field.name with
  | connection => exact dirty_reject (ascii_ne_nil (by simp))
  | contentLength =>
    simp only
    split_ifs with hany
    · exact dirty_reject (ascii_ne_nil (by simp))
    · refine addRegularHeader_of_not_ok fun hok => h ⟨?_,by simp [hcode],fun _ n hn => ?_⟩
      · simp only [regularOk,hcode,Bool.and_eq_true,bne_iff_ne,ne_eq,reduceCtorEq,not_false_eq_true,true_and]
        exact ⟨hok.1,hok.2.1⟩
      · simpa [Option.mem_def.mp hn] using hany
  | _ =>
    refine addRegularHeader_of_not_ok fun hok => h ⟨?_,hok.2.2,by simp [hcode]⟩
    simp only [regularOk,hcode,Bool.and_eq_true,bne_iff_ne,ne_eq,reduceCtorEq,not_false_eq_true,true_and]
    exact ⟨hok.1,hok.2.1⟩

end

end QuicWestwood.HTTP
