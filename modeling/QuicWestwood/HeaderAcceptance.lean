import QuicWestwood.HeaderChecks

/-! Acceptance is a condition on each field, one on each pair of fields and one on the set of pseudo-headers.
`Content-Length` fields only have to agree in what the codec reads them as, which is 0 for everything that is
not a 32-bit number. -/
namespace QuicWestwood.HTTP
open ByteCodec CodecUtil HeaderDecodeInfo HTTPRequestVerifier List

def occurrences (name : String) (fields : List HPACKHeader) : List HPACKHeader :=
  fields.filter fun field => field.name = ascii name

def Present (name : String) (fields : List HPACKHeader) : Prop := ∃ field ∈ fields,field.name = ascii name

def contentLengths (fields : List HPACKHeader) : List Bytes := (occurrences "content-length" fields).map (·.value)

def decimal (text : Bytes) : Option ℕ := if text≠[] ∧ text.all isDigit then some (digitsValue text) else none

def LengthsAgree (fields : List HPACKHeader) : Prop :=
  ∃ n,∀ value ∈ contentLengths fields,decimal value = some n

/-- The method is `CONNECT`; `HTTPMessage` ignores the case of methods. -/
def IsConnect (fields : List HPACKHeader) : Prop :=
  ∃ field ∈ fields,field.name = ascii ":method" ∧ caseInsensitiveEqual (ascii "CONNECT") field.value

/-- The pseudo-headers without which a request of its method is incomplete. -/
def Mandatory (fields : List HPACKHeader) : Prop :=
  Present ":method" fields ∧ (IsConnect fields ∧ ¬Present ":protocol" fields → Present ":authority" fields) ∧
    (¬(IsConnect fields ∧ ¬Present ":protocol" fields) → Present ":scheme" fields ∧ Present ":path" fields)

structure WellFormed (fields : List HPACKHeader) : Prop where
  pseudo_first : fields.Pairwise fun a b => startsWithColon b.name → startsWithColon a.name
  at_most_once : ∀ name ∈ [":method",":scheme",":authority",":path",":protocol"],
    (occurrences name fields).length ≤ 1
  mandatory : Mandatory fields
  lengths_agree : LengthsAgree fields

/-- What the codec requires of a field behind another one. -/
structure Compatible (a b : HPACKHeader) : Prop where
  pseudo : startsWithColon b.name → startsWithColon a.name ∧ headerCode a.name≠headerCode b.name
  host : headerCode a.name = .colonAuthority → headerCode b.name = .host → a.value=b.value
  length : headerCode a.name = .contentLength → headerCode b.name = .contentLength →
    readContentLength a.value = readContentLength b.value

def Complete (fields : List HPACKHeader) : Prop :=
  Mandatory fields ∧ (Present ":protocol" fields → IsConnect fields) ∧
    (IsConnect fields ∧ ¬Present ":protocol" fields → ¬Present ":scheme" fields ∧ ¬Present ":path" fields)

structure Consistent (parseURL : Bytes → Bool) (settings : DecodeSettings) (fields : List HPACKHeader) : Prop where
  fieldOk : ∀ field ∈ fields,FieldOk parseURL settings field
  compatible : fields.Pairwise Compatible

variable {fields : List HPACKHeader}

lemma consistent_append_singleton {parseURL settings} {field : HPACKHeader} :
    Consistent parseURL settings (fields++[field]) ↔
      Consistent parseURL settings fields ∧ FieldOk parseURL settings field ∧ ∀ a ∈ fields,Compatible a field := by
  have hiff (l : List HPACKHeader) : Consistent parseURL settings l ↔
      (∀ f ∈ l,FieldOk parseURL settings f) ∧ l.Pairwise Compatible :=
    ⟨fun h => ⟨h.1,h.2⟩,fun h => ⟨h.1,h.2⟩⟩
  simp only [hiff,forall_mem_append,forall_mem_singleton,pairwise_append,pairwise_singleton,true_and]
  tauto

lemma present_iff (entry : String × HTTPHeaderCode) (h : entry ∈ distinguishedHeaders) (fields : List HPACKHeader) :
    Present entry.1 fields ↔ ∃ field ∈ fields,headerCode field.name = entry.2 := by
  unfold Present
  simp only [headerCode_eq_iff entry h]

/-- What the state without an error says about the fields so far. -/
structure Tracks (settings : DecodeSettings) (fields : List HPACKHeader) (info : HeaderDecodeInfo) : Prop where
  settings_eq : info.settings=settings
  decodeError_eq : info.decodeError=none
  parsingError_eq : info.parsingError=[]
  error_eq : info.verifier.error=[]
  holds_iff : ∀ entry ∈ requestPseudo,
    info.verifier.holds entry.2 = true ↔ ∃ field ∈ fields,headerCode field.name = entry.2
  connect_iff : info.msg.getMethod = some .connect ↔
    ∃ field ∈ fields,headerCode field.name = .colonMethod ∧ caseInsensitiveEqual (ascii "CONNECT") field.value
  regular_iff : info.regularHeaderSeen=true ↔ ∃ field ∈ fields,startsWithColon field.name = false
  length_eq : ∀ field ∈ fields,headerCode field.name = .contentLength →
    info.contentLength = some (readContentLength field.value)
  length_mem : ∀ n ∈ info.contentLength,∃ field ∈ fields,
    headerCode field.name = .contentLength ∧ n = readContentLength field.value
  host_eq : ∀ field ∈ fields,headerCode field.name = .colonAuthority → info.msg.valuesOf .host = [field.value]
  no_host : info.regularHeaderSeen=false → info.verifier.hasAuthority=false → info.msg.valuesOf .host = []

lemma tracks_init (settings : DecodeSettings) : Tracks settings [] (init settings) where
  settings_eq := rfl
  decodeError_eq := rfl
  parsingError_eq := rfl
  error_eq := rfl
  holds_iff := by
    intro entry hentry
    fin_cases hentry <;> simp [init,holds]
  connect_iff := by simp [init,HeaderDecodeInfo.msg,HTTPMessage.getMethod]
  regular_iff := by simp [init]
  length_eq := by simp
  length_mem := by simp [init]
  host_eq := by simp
  no_host := by simp [init,HeaderDecodeInfo.msg,HTTPMessage.valuesOf]

section
variable {parseURL : Bytes → Bool} {settings : DecodeSettings} {fields : List HPACKHeader}
variable {info : HeaderDecodeInfo} {field : HPACKHeader}

lemma startsWithColon_of_mem {name : Bytes} {entry : String × HTTPHeaderCode} (h : entry ∈ requestPseudo)
    (hcode : headerCode name = entry.2) : startsWithColon name = true := by
  have hall : ∀ e ∈ requestPseudo,e ∈ distinguishedHeaders ∧ startsWithColon (ascii e.1) = true := by decide +kernel
  rw [(headerCode_eq_iff entry (hall entry h).1).mp hcode]
  exact (hall entry h).2

lemma startsWithColon_contentLength {name : Bytes} (h : headerCode name = .contentLength) :
    startsWithColon name = false := by
  rw [(headerCode_eq_iff ("content-length",.contentLength) (by decide)).mp h]
  decide +kernel

lemma startsWithColon_host {name : Bytes} (h : headerCode name = .host) : startsWithColon name = false := by
  rw [(headerCode_eq_iff ("host",.host) (by decide)).mp h]
  decide +kernel

lemma exists_entry_of_pseudoOk (h : pseudoOk parseURL settings field = true) :
    ∃ entry ∈ requestPseudo,headerCode field.name = entry.2 := by
  unfold pseudoOk at h
  cases hcode : headerCode field.name with
  | colonMethod => exact ⟨(":method",.colonMethod),by decide,rfl⟩
  | colonScheme => exact ⟨(":scheme",.colonScheme),by decide,rfl⟩
  | colonAuthority => exact ⟨(":authority",.colonAuthority),by decide,rfl⟩
  | colonPath => exact ⟨(":path",.colonPath),by decide,rfl⟩
  | colonProtocol => exact ⟨(":protocol",.colonProtocol),by decide,rfl⟩
  | _ => simp [hcode] at h

lemma Tracks.pseudo (h : Tracks settings fields info) (hcolon : startsWithColon field.name = true)
    (hregular : info.regularHeaderSeen=false) (hfresh : info.verifier.holds (headerCode field.name) = false)
    (hok : pseudoOk parseURL settings field = true) :
    Tracks settings (fields++[field]) (info.sawPseudoHeader.withVerifier (info.verifier.taken field)) := by
  obtain ⟨entry,hentry,hcode⟩ := exists_entry_of_pseudoOk hok
  refine ⟨h.settings_eq,h.decodeError_eq,h.parsingError_eq,?_,?_,?_,?_,?_,?_,?_,?_⟩
  · rw [← h.error_eq]
    exact info.verifier.error_taken field
  · intro e he
    change (info.verifier.taken field).holds e.2 = true ↔ _
    rw [info.verifier.holds_taken field e he,Bool.or_eq_true,h.holds_iff e he]
    simp [or_and_right,exists_or]
  · change (info.verifier.taken field).msg.getMethod = some .connect ↔ _
    rw [info.verifier.getMethod_taken field]
    by_cases hmethod : headerCode field.name = .colonMethod
    · have hnone : ¬∃ f ∈ fields,headerCode f.name = .colonMethod := by
        rw [← h.holds_iff (":method",.colonMethod) (by decide),← hmethod,hfresh]
        simp
      rw [if_pos hmethod,stringToMethod_eq_connect_iff]
      constructor
      · exact fun hconnect => ⟨field,by simp,hmethod,hconnect⟩
      · rintro ⟨f,hf,hcode',hconnect⟩
        rcases mem_append.mp hf with hf | hf
        · exact absurd ⟨f,hf,hcode'⟩ hnone
        · rwa [← mem_singleton.mp hf]
    · rw [if_neg hmethod]
      refine h.connect_iff.trans ⟨fun ⟨f,hf,hrest⟩ => ⟨f,by simp [hf],hrest⟩,?_⟩
      rintro ⟨f,hf,hcode',hconnect⟩
      rcases mem_append.mp hf with hf | hf
      · exact ⟨f,hf,hcode',hconnect⟩
      · exact absurd (mem_singleton.mp hf ▸ hcode') hmethod
  · change info.regularHeaderSeen = true ↔ _
    rw [h.regular_iff]
    simp [or_and_right,exists_or,hcolon]
  · intro f hf hlength
    rcases mem_append.mp hf with hf | hf
    · exact h.length_eq f hf hlength
    · rw [mem_singleton.mp hf] at hlength
      rw [startsWithColon_contentLength hlength] at hcolon
      cases hcolon
  · intro n hn
    obtain ⟨f,hf,hrest⟩ := h.length_mem n hn
    exact ⟨f,by simp [hf],hrest⟩
  · intro f hf hauth
    change (info.verifier.taken field).msg.valuesOf .host = _
    rw [info.verifier.valuesOf_taken field]
    rcases mem_append.mp hf with hf | hf
    · have hother : headerCode field.name≠.colonAuthority := by
        intro hcode'
        rw [hcode',Bool.eq_false_iff] at hfresh
        exact hfresh ((h.holds_iff (":authority",.colonAuthority) (by decide)).mpr ⟨f,hf,hauth⟩)
      rw [if_neg hother,append_nil]
      exact h.host_eq f hf hauth
    · rw [mem_singleton.mp hf] at hauth ⊢
      rw [hauth] at hfresh
      have hempty := h.no_host hregular hfresh
      unfold HeaderDecodeInfo.msg at hempty
      rw [if_pos hauth,hempty,nil_append]
  · intro _ hauth
    have hauth' : (info.verifier.taken field).holds .colonAuthority = false := hauth
    rw [info.verifier.holds_taken field (":authority",.colonAuthority) (by decide),Bool.or_eq_false_iff] at hauth'
    change (info.verifier.taken field).msg.valuesOf .host = _
    rw [info.verifier.valuesOf_taken field,if_neg (of_decide_eq_false hauth'.2),append_nil]
    exact h.no_host hregular hauth'.1

lemma Tracks.regular (h : Tracks settings fields info) (hcolon : startsWithColon field.name = false)
    (hagrees : AgreesWith info field) :
    Tracks settings (fields++[field]) (admitted info.sawRegularHeader field) := by
  obtain ⟨hsettings,hdecode,hparsing,hregular,herror,hholds,hmethod⟩ := admitted_frame info.sawRegularHeader field
  have hnotPseudo : ∀ entry ∈ requestPseudo,headerCode field.name≠entry.2 := by
    intro entry hentry hcode
    rw [startsWithColon_of_mem hentry hcode] at hcolon
    cases hcolon
  have hlast {P : HPACKHeader → Prop} (hfield : ¬P field) : (∃ f ∈ fields++[field], P f) ↔ ∃ f ∈ fields,P f := by
    simp [or_and_right,exists_or,hfield]
  refine ⟨hsettings.trans h.settings_eq,hdecode.trans h.decodeError_eq,hparsing.trans h.parsingError_eq,
    herror.trans h.error_eq,?_,?_,?_,?_,?_,?_,?_⟩
  · intro e he
    rw [hholds,hlast (hnotPseudo e he)]
    exact h.holds_iff e he
  · rw [hmethod,hlast fun hfield => hnotPseudo (":method",.colonMethod) (by decide) hfield.1]
    exact h.connect_iff
  · rw [hregular]
    exact ⟨fun _ => ⟨field,by simp,hcolon⟩,fun _ => rfl⟩
  · intro f hf hlength
    rw [admitted_contentLength]
    rcases mem_append.mp hf with hf | hf
    · have hsome := h.length_eq f hf hlength
      split_ifs with hcode
      · rw [hagrees.2 hcode _ hsome]
      · exact hsome
    · rw [mem_singleton.mp hf] at hlength ⊢
      rw [if_pos hlength]
  · intro n hn
    rw [admitted_contentLength] at hn
    split_ifs at hn with hcode
    · exact ⟨field,by simp,hcode,(Option.some.inj hn).symm⟩
    · obtain ⟨f,hf,hrest⟩ := h.length_mem n hn
      exact ⟨f,by simp [hf],hrest⟩
  · intro f hf hauth
    rcases mem_append.mp hf with hf | hf
    · have hholds' := (h.holds_iff (":authority",.colonAuthority) (by decide)).mpr ⟨f,hf,hauth⟩
      have hsame : (admitted info.sawRegularHeader field).msg.valuesOf .host = info.msg.valuesOf .host :=
        admitted_host fun _ => hholds'
      rw [hsame,h.host_eq f hf hauth]
    · rw [mem_singleton.mp hf] at hauth
      exact absurd hauth (hnotPseudo (":authority",.colonAuthority) (by decide))
  · intro hfalse
    rw [hregular] at hfalse
    cases hfalse

/-! A field either passes, and the state goes on tracking, or leaves an error. -/

lemma agreesWith_iff (h : Tracks settings fields info) (hcolon : startsWithColon field.name = false) :
    AgreesWith info field ↔ ∀ a ∈ fields,Compatible a field := by
  constructor
  · intro hagrees a ha
    refine ⟨fun hpseudo => by simp [hcolon] at hpseudo,fun hauth hhost => ?_,fun hcode hcode' => ?_⟩
    · have hsingle := hagrees.1 hhost ((h.holds_iff (":authority",.colonAuthority) (by decide)).mpr ⟨a,ha,hauth⟩)
      unfold HTTPMessage.getSingleOrEmpty at hsingle
      rwa [h.host_eq a ha hauth] at hsingle
    · exact hagrees.2 hcode' _ (h.length_eq a ha hcode)
  · intro hall
    refine ⟨fun hhost hauth => ?_,fun hcode n hn => ?_⟩
    · obtain ⟨a,ha,hcode⟩ := (h.holds_iff (":authority",.colonAuthority) (by decide)).mp hauth
      unfold HTTPMessage.getSingleOrEmpty
      rw [h.host_eq a ha hcode]
      exact (hall a ha).host hcode hhost
    · obtain ⟨a,ha,hcode',rfl⟩ := h.length_mem n hn
      exact (hall a ha).length hcode' hcode

lemma pseudo_compatible_iff (h : Tracks settings fields info) (hcolon : startsWithColon field.name = true)
    (hok : pseudoOk parseURL settings field = true) :
    (info.regularHeaderSeen=false ∧ info.verifier.holds (headerCode field.name) = false) ↔
      ∀ a ∈ fields,Compatible a field := by
  obtain ⟨entry,hentry,hcode⟩ := exists_entry_of_pseudoOk hok
  have hregular : info.regularHeaderSeen=false ↔ ∀ a ∈ fields,startsWithColon a.name = true := by
    rw [Bool.eq_false_iff,ne_eq,h.regular_iff]
    simp
  have hfresh : info.verifier.holds (headerCode field.name) = false ↔
      ∀ a ∈ fields,headerCode a.name≠headerCode field.name := by
    rw [Bool.eq_false_iff,ne_eq,hcode,h.holds_iff entry hentry]
    simp
  rw [hregular,hfresh]
  constructor
  · intro hboth a ha
    refine ⟨fun _ => ⟨hboth.1 a ha,hboth.2 a ha⟩,fun _ hhost => ?_,fun _ hlength => ?_⟩
    · rw [startsWithColon_host hhost] at hcolon
      cases hcolon
    · rw [startsWithColon_contentLength hlength] at hcolon
      cases hcolon
  · exact fun hall => ⟨fun a ha => ((hall a ha).pseudo hcolon).1,fun a ha => ((hall a ha).pseudo hcolon).2⟩

lemma onHeader_frame : (onHeader parseURL info field).2.settings = info.settings ∧
    (onHeader parseURL info field).2.decodeError = info.decodeError := by
  unfold onHeader onRequestPseudoHeader onResponsePseudoHeader onRegularHeader addRegularHeader
  simp only
  repeat' split
  all_goals exact ⟨rfl,rfl⟩

lemma onHeader_eq (hdecode : info.decodeError=none) (hparsing : info.parsingError=[])
    (hrequest : info.settings.isRequest=true) :
    onHeader parseURL info field = if startsWithColon field.name then
        if info.regularHeaderSeen then
          info.sawPseudoHeader.reject (ascii "Illegal pseudo header name=" ++ field.name)
        else onRequestPseudoHeader parseURL info.sawPseudoHeader field
      else onRegularHeader info.sawRegularHeader field := by
  have hrequest' : info.sawPseudoHeader.settings.isRequest=true := hrequest
  unfold onHeader
  rw [if_neg (by simp [hdecode,hparsing])]
  simp only [hrequest',if_true]
  rfl

lemma onHeader_of_dirty (hvalidate : info.settings.validate=true) (hrequest : info.settings.isRequest=true)
    (hdecode : info.decodeError=none) (h : Dirty info) : Dirty (onHeader parseURL info field).2 := by
  by_cases hparsing : info.parsingError=[]
  · have herror := h.resolve_left (not_not.mpr hparsing)
    rw [onHeader_eq hdecode hparsing hrequest]
    split_ifs with hcolon hregular
    · exact dirty_reject (append_ne_nil (by simp) _)
    · by_cases hok : info.verifier.holds (headerCode field.name) = false ∧ pseudoOk parseURL info.settings field = true
      · have htaken : (onRequestPseudoHeader parseURL info.sawPseudoHeader field).2 =
            info.sawPseudoHeader.withVerifier (info.verifier.taken field) :=
          onRequestPseudoHeader_of_ok hvalidate hok.1 hok.2
        rw [← info.verifier.error_taken field] at herror
        rw [htaken]
        exact .inr herror
      · exact onRequestPseudoHeader_of_not_ok hvalidate hok
    · by_cases hok : regularOk info.settings field = true ∧ AgreesWith info.sawRegularHeader field
      · have hadmitted : (onRegularHeader info.sawRegularHeader field).2 = admitted info.sawRegularHeader field :=
          onRegularHeader_of_ok hok.1 hok.2
        have hframe := admitted_frame info.sawRegularHeader field
        rw [hadmitted]
        refine .inr ?_
        rw [hframe.2.2.2.2.1]
        exact herror
      · exact onRegularHeader_of_not_ok hok
  · unfold onHeader
    rw [if_pos (.inr hparsing)]
    exact h

lemma fieldOk_pseudo (hcolon : startsWithColon field.name = true) :
    FieldOk parseURL settings field ↔ pseudoOk parseURL settings field = true := by
  simp [FieldOk,hcolon]

lemma fieldOk_regular (hcolon : startsWithColon field.name = false) :
    FieldOk parseURL settings field ↔ regularOk settings field = true := by
  simp [FieldOk,hcolon]

lemma Tracks.onHeader (h : Tracks settings fields info) (hvalidate : settings.validate=true)
    (hrequest : settings.isRequest=true) (hok : FieldOk parseURL settings field)
    (hcompatible : ∀ a ∈ fields,Compatible a field) :
    Tracks settings (fields++[field]) (onHeader parseURL info field).2 := by
  obtain rfl := h.settings_eq
  rw [onHeader_eq h.decodeError_eq h.parsingError_eq hrequest]
  cases hcolon : startsWithColon field.name with
  | true =>
    rw [fieldOk_pseudo hcolon] at hok
    obtain ⟨hregular,hfresh⟩ := (pseudo_compatible_iff h hcolon hok).mpr hcompatible
    have htaken : (onRequestPseudoHeader parseURL info.sawPseudoHeader field).2 =
        info.sawPseudoHeader.withVerifier (info.verifier.taken field) :=
      onRequestPseudoHeader_of_ok hvalidate hfresh hok
    rw [if_pos rfl,if_neg (by simp [hregular]),htaken]
    exact h.pseudo hcolon hregular hfresh hok
  | false =>
    rw [fieldOk_regular hcolon] at hok
    have hagrees := (agreesWith_iff h hcolon).mpr hcompatible
    have hadmitted : (onRegularHeader info.sawRegularHeader field).2 = admitted info.sawRegularHeader field :=
      onRegularHeader_of_ok hok hagrees
    rw [if_neg (by simp),hadmitted]
    exact h.regular hcolon hagrees

lemma Tracks.dirty (h : Tracks settings fields info) (hvalidate : settings.validate=true)
    (hrequest : settings.isRequest=true)
    (hnot : ¬(FieldOk parseURL settings field ∧ ∀ a ∈ fields,Compatible a field)) :
    Dirty (HeaderDecodeInfo.onHeader parseURL info field).2 := by
  obtain rfl := h.settings_eq
  rw [onHeader_eq h.decodeError_eq h.parsingError_eq hrequest]
  cases hcolon : startsWithColon field.name with
  | true =>
    rw [if_pos rfl]
    split_ifs with hregular
    · exact dirty_reject (append_ne_nil (by simp) _)
    · refine onRequestPseudoHeader_of_not_ok hvalidate fun hok => hnot ⟨(fieldOk_pseudo hcolon).mpr hok.2,?_⟩
      exact (pseudo_compatible_iff h hcolon hok.2).mp ⟨Bool.eq_false_iff.mpr hregular,hok.1⟩
  | false =>
    rw [if_neg (by simp)]
    refine onRegularHeader_of_not_ok fun hok => hnot ⟨(fieldOk_regular hcolon).mpr hok.1,?_⟩
    exact (agreesWith_iff h hcolon).mp hok.2

end

section
variable (parseURL : Bytes → Bool) (settings : DecodeSettings) (fields : List HPACKHeader)

lemma onHeaders_append_singleton (info : HeaderDecodeInfo) (field : HPACKHeader) :
    info.onHeaders parseURL (fields++[field]) = (onHeader parseURL (info.onHeaders parseURL fields) field).2 := by
  simp [onHeaders]

lemma onHeaders_frame : ((init settings).onHeaders parseURL fields).settings = settings ∧
    ((init settings).onHeaders parseURL fields).decodeError = none := by
  induction fields using reverseRecOn with
  | nil => exact ⟨rfl,rfl⟩
  | append_singleton fields field ih =>
    rw [onHeaders_append_singleton]
    exact ⟨onHeader_frame.1.trans ih.1,onHeader_frame.2.trans ih.2⟩

lemma onHeaders_spec (hvalidate : settings.validate=true) (hrequest : settings.isRequest=true) :
    (Consistent parseURL settings fields → Tracks settings fields ((init settings).onHeaders parseURL fields)) ∧
      (¬Consistent parseURL settings fields → Dirty ((init settings).onHeaders parseURL fields)) := by
  induction fields using reverseRecOn with
  | nil => exact ⟨fun _ => tracks_init settings,fun h => absurd ⟨by simp,List.Pairwise.nil⟩ h⟩
  | append_singleton fields field ih =>
    obtain ⟨hsettings,hdecode⟩ := onHeaders_frame parseURL settings fields
    rw [onHeaders_append_singleton,consistent_append_singleton]
    constructor
    · rintro ⟨hfields,hok,hcompatible⟩
      exact (ih.1 hfields).onHeader hvalidate hrequest hok hcompatible
    · intro hnot
      by_cases hfields : Consistent parseURL settings fields
      · exact (ih.1 hfields).dirty hvalidate hrequest fun hok => hnot ⟨hfields,hok⟩
      · exact onHeader_of_dirty (by rw [hsettings,hvalidate]) (by rw [hsettings,hrequest]) hdecode (ih.2 hfields)

end

lemma HTTPRequestVerifier.validate_cases (v : HTTPRequestVerifier) (h : v.error=[]) :
    (v.validate = (true,v) ∧
        (if v.msg.getMethod = some .connect then v.malformedConnect = false else v.malformedRequest = false)) ∨
      (v.validate.1=false ∧ v.validate.2.error≠[] ∧
        ¬(if v.msg.getMethod = some .connect then v.malformedConnect = false else v.malformedRequest = false)) := by
  unfold validate
  rw [if_neg (not_not.mpr h)]
  split_ifs with hconnect hbad hbad
  · exact .inr ⟨rfl,append_ne_nil (by simp) _,by simp [hbad]⟩
  · exact .inl ⟨rfl,Bool.eq_false_iff.mpr hbad⟩
  · exact .inr ⟨rfl,append_ne_nil (by simp) _,by simp [hbad]⟩
  · exact .inl ⟨rfl,Bool.eq_false_iff.mpr hbad⟩

section
variable {info : HeaderDecodeInfo} (hrequest : info.settings.isRequest=true)
  (htrailers : info.settings.isRequestTrailers=false) (decodedSize : HTTPHeaderSize)
include hrequest htrailers

lemma onHeadersComplete_parsingError :
    (info.onHeadersComplete decodedSize).parsingError =
      let verified := validate {info.verifier with msg := info.msg.combineCookies}
      if verified.1 then info.parsingError else verified.2.error := by
  unfold onHeadersComplete
  simp only [hrequest,htrailers,Bool.false_eq_true,not_false_eq_true,and_self,if_true]
  generalize validate {info.verifier with msg := info.msg.combineCookies} = verified
  obtain ⟨ok,v⟩ := verified
  cases ok
  · simp [withVerifier]
  · simp [withVerifier,withMsg,hrequest,htrailers]

lemma onHeadersComplete_of_dirty (h : Dirty info) : (info.onHeadersComplete decodedSize).parsingError≠[] := by
  rw [onHeadersComplete_parsingError hrequest htrailers]
  simp only
  by_cases herror : info.verifier.error=[]
  · rcases validate_cases {info.verifier with msg := info.msg.combineCookies} herror
      with ⟨heq,-⟩ | ⟨hfalse,hne,-⟩
    · rw [heq,if_pos rfl]
      exact h.resolve_right (not_not.mpr herror)
    · rw [hfalse,if_neg (by simp)]
      exact hne
  · unfold validate
    rw [if_pos herror,if_neg (by simp)]
    exact herror

lemma onHeadersComplete_of_tracks {settings : DecodeSettings} (h : Tracks settings fields info) :
    (info.onHeadersComplete decodedSize).parsingError = [] ↔ Complete fields := by
  have hpresent (entry : String × HTTPHeaderCode) (he : entry ∈ requestPseudo) :
      info.verifier.holds entry.2 = true ↔ Present entry.1 fields := by
    have hsub : ∀ e ∈ requestPseudo,e ∈ distinguishedHeaders := by decide
    rw [h.holds_iff entry he,present_iff entry (hsub entry he)]
  have hmethod := hpresent (":method",.colonMethod) (by decide)
  have hscheme := hpresent (":scheme",.colonScheme) (by decide)
  have hauthority := hpresent (":authority",.colonAuthority) (by decide)
  have hpath := hpresent (":path",.colonPath) (by decide)
  have hprotocol := hpresent (":protocol",.colonProtocol) (by decide)
  have hconnect : info.msg.combineCookies.getMethod = some .connect ↔ IsConnect fields := by
    rw [HTTPMessage.getMethod_combineCookies,h.connect_iff]
    simp only [headerCode_eq_iff (":method",.colonMethod) (by decide)]
    rfl
  have hconnectMethod : IsConnect fields → Present ":method" fields := fun ⟨f,hf,hname,_⟩ => ⟨f,hf,hname⟩
  have hcomplete : Complete fields ↔
      if info.msg.combineCookies.getMethod = some .connect then info.verifier.malformedConnect = false
      else info.verifier.malformedRequest = false := by
    simp only [holds] at hmethod hscheme hauthority hpath hprotocol
    unfold Complete Mandatory
    rw [← hmethod,← hscheme,← hauthority,← hpath,← hprotocol]
    rw [← hmethod] at hconnectMethod
    by_cases hc : IsConnect fields
    · have hm := hconnectMethod hc
      rw [if_pos (hconnect.mpr hc),malformedConnect]
      cases info.verifier.hasUpgradeProtocol <;> cases info.verifier.hasScheme <;> cases info.verifier.hasPath <;>
        cases info.verifier.hasAuthority <;> simp [hc,hm]
    · rw [if_neg fun hmethod => hc (hconnect.mp hmethod),malformedRequest]
      cases info.verifier.hasUpgradeProtocol <;> cases info.verifier.hasScheme <;> cases info.verifier.hasPath <;>
        cases info.verifier.hasMethod <;> simp [hc]
  rw [onHeadersComplete_parsingError hrequest htrailers,hcomplete]
  simp only
  rcases validate_cases {info.verifier with msg := info.msg.combineCookies} h.error_eq
    with ⟨heq,hgood⟩ | ⟨hfalse,hne,hbad⟩
  · rw [heq,if_pos rfl]
    exact iff_of_true h.parsingError_eq hgood
  · rw [hfalse,if_neg (by simp)]
    exact iff_of_false hne hbad

end

def requestSettings (strictValidation allowEmptyPath : Bool) : DecodeSettings :=
  ⟨true,false,true,strictValidation,allowEmptyPath⟩

section
variable (parseURL : Bytes → Bool) (settings : DecodeSettings) (fields : List HPACKHeader)

def Accepts (decodedSize : HTTPHeaderSize) : Prop :=
  (((init settings).onHeaders parseURL fields).onHeadersComplete decodedSize).parsingError = []

theorem accepts_iff (hrequest : settings.isRequest=true) (htrailers : settings.isRequestTrailers=false)
    (hvalidate : settings.validate=true) (decodedSize : HTTPHeaderSize) :
    Accepts parseURL settings fields decodedSize ↔ Consistent parseURL settings fields ∧ Complete fields := by
  have hsettings := (onHeaders_frame parseURL settings fields).1
  have hrequest' : ((init settings).onHeaders parseURL fields).settings.isRequest = true := by rw [hsettings,hrequest]
  have htrailers' : ((init settings).onHeaders parseURL fields).settings.isRequestTrailers = false := by
    rw [hsettings,htrailers]
  have hspec := onHeaders_spec parseURL settings fields hvalidate hrequest
  unfold Accepts
  by_cases h : Consistent parseURL settings fields
  · rw [onHeadersComplete_of_tracks hrequest' htrailers' decodedSize (hspec.1 h)]
    exact ⟨fun hcomplete => ⟨h,hcomplete⟩,fun hboth => hboth.2⟩
  · exact iff_of_false (onHeadersComplete_of_dirty hrequest' htrailers' decodedSize (hspec.2 h)) fun hboth => h hboth.1

end

lemma Consistent.at_most_once {parseURL : Bytes → Bool} {settings : DecodeSettings}
    (h : Consistent parseURL settings fields) {name : String} (hcolon : startsWithColon (ascii name) = true) :
    (occurrences name fields).length ≤ 1 := by
  have hpair : (occurrences name fields).Pairwise Compatible := h.compatible.filter _
  have hname : ∀ f ∈ occurrences name fields,f.name = ascii name := fun f hf =>
    of_decide_eq_true (mem_filter.mp hf).2
  match hocc : occurrences name fields with
  | [] => simp
  | [_] => simp
  | a::b::rest =>
    rw [hocc] at hpair hname
    have ha := hname a (by simp)
    have hb := hname b (by simp)
    have hab := rel_of_pairwise_cons hpair (mem_cons_self ..)
    exact absurd (by rw [ha,hb]) (hab.pseudo (by rw [hb,hcolon])).2

/-- A request slips through if all other checks pass and its lengths, although they are not the same
decimal number, are read as the same one. -/
structure Slips (parseURL : Bytes → Bool) (settings : DecodeSettings) (fields : List HPACKHeader) : Prop where
  consistent : Consistent parseURL settings fields
  complete : Complete fields
  differ : ¬LengthsAgree fields

def smugglingRequest : List HPACKHeader :=
  staticEntries [(":method","POST"),(":scheme","https"),(":path","/"),("content-length","0"),
    ("content-length","4294967296")]

end QuicWestwood.HTTP
