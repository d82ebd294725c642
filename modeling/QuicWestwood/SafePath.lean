import QuicWestwood.ByteCodec

/-! `SafePath` cleans a path, cuts it at the first NUL byte and compares the rest with a base directory. A path
of the file system library is modelled by its elements; it is split at every separator, a trailing separator
counts as a last element `.`, and names of network roots are not recognised. `realpath` is a parameter. -/
namespace QuicWestwood.SafePath
open ByteCodec List

def pathSeparator : UInt8 := 47

def rootElement : Bytes := [pathSeparator]

def dot : Bytes := [46]

def dotDot : Bytes := [46,46]

def pathMax : ℕ := 4096

inductive PathError where
  | baseDirectoryEmpty
  | normalizedEmpty (filePath : Bytes)
  | tooLong (normalizedPath filePath : Bytes) (pathMax : ℕ)
  | realPath (filePath : Bytes)
  | notUnderBase (filePath baseDirectory : Bytes) (usedRealPaths : Bool) (normalizedPath : Bytes)
  deriving DecidableEq

def components (path : Bytes) : List Bytes := path.splitOn pathSeparator

/-- The elements that an iteration over a path yields. -/
def elements (path : Bytes) : List Bytes :=
  let names := (components path).filter (·≠[])
  (if path.head? = some pathSeparator then [rootElement] else [])++names ++
    if names≠[] ∧ path.getLast? = some pathSeparator then [dot] else []

def filename (output : List Bytes) : Bytes := output.getLast?.getD []

def string : List Bytes → Bytes
  | [] => []
  | e::es =>
    if e=rootElement then e++[pathSeparator].intercalate es
    else [pathSeparator].intercalate (e::es)

def cleanStep (output : List Bytes) (element : Bytes) : List Bytes :=
  if element=dot then output
  else if element=dotDot then
    if filename output≠rootElement then output.dropLast else output
  else output++[element]

def clean (path : Bytes) : List Bytes := (elements path).foldl cleanStep []

def cleanPath (path : Bytes) : Bytes := string (clean path)

/-- `std::string(text.c_str())` -/
def cString (text : Bytes) : Bytes := text.takeWhile (·≠0)

def getNormalizedPathSafe (filePath : Bytes) : Except PathError Bytes :=
  if cleanPath filePath = [] then .error (.normalizedEmpty filePath)
  else if pathMax < (cString (cleanPath filePath)).length then
    .error (.tooLong (cleanPath filePath) filePath pathMax)
  else .ok (cString (cleanPath filePath))

def withSeparator (baseDirectory : Bytes) : Bytes :=
  if baseDirectory.getLast? = some pathSeparator then baseDirectory
  else baseDirectory++[pathSeparator]

def startsWithBaseDir (filePath baseDirectory : Bytes) : Bool :=
  filePath == baseDirectory || (withSeparator baseDirectory).isPrefixOf filePath

def getRealPathSafe (realpath : Bytes → Option Bytes) (filePath : Bytes) : Except PathError Bytes :=
  match realpath (cString filePath) with
  | none => .error (.realPath filePath)
  | some buffer => .ok (cString buffer)

def getPathSafe (realpath : Bytes → Option Bytes) (filePath baseDirectory : Bytes)
    (useRealPaths : Bool) : Except PathError Bytes := do
  if baseDirectory=[] then throw .baseDirectoryEmpty
  let normalizedPath ← getNormalizedPathSafe filePath
  let finalFilePath ← if useRealPaths then getRealPathSafe realpath filePath else pure normalizedPath
  let finalBaseDirectory ←
    if useRealPaths then getRealPathSafe realpath baseDirectory else pure baseDirectory
  if startsWithBaseDir finalFilePath finalBaseDirectory then pure normalizedPath
  else throw (.notUnderBase finalFilePath finalBaseDirectory useRealPaths normalizedPath)

lemma not_mem_of_mem_components {path n : Bytes} (h : n ∈ components path) : pathSeparator ∉ n := by
  induction path generalizing n with
  | nil =>
    obtain rfl : n=[] := by simpa [components] using h
    simp
  | cons c cs ih =>
    unfold components at h ih
    rw [splitOn_cons_eq_if_modifyHead] at h
    split_ifs at h with hc
    · rcases mem_cons.mp h with rfl | h
      · simp
      · exact ih h
    · obtain ⟨m,ms,hms⟩ := exists_cons_of_ne_nil (splitOn_ne_nil pathSeparator cs)
      rw [hms] at h ih
      rcases mem_cons.mp h with rfl | h
      · have hm := ih (n := m) (by simp)
        rw [mem_cons,not_or]
        exact ⟨fun heq => hc (by simp [heq]),hm⟩
      · exact ih (by simp [h])

structure Plain (n : Bytes) : Prop where
  ne_nil : n≠[]
  separator : pathSeparator ∉ n
  ne_dot : n≠dot
  ne_dotDot : n≠dotDot

def Cleaned (output : List Bytes) : Prop :=
  ∃ names : List Bytes,(output=names ∨ output = rootElement::names) ∧ ∀ n ∈ names,Plain n

lemma Plain.ne_rootElement {n : Bytes} (h : Plain n) : n≠rootElement := by
  rintro rfl
  exact h.separator (by simp [rootElement])

lemma Cleaned.cleanStep {output : List Bytes} (h : Cleaned output) {e : Bytes} (hne : e≠[])
    (hsep : pathSeparator ∉ e) : Cleaned (cleanStep output e) := by
  obtain ⟨names,hout,hplain⟩ := h
  unfold SafePath.cleanStep
  split_ifs with hdot hdotDot hroot
  · exact ⟨names,hout,hplain⟩
  · refine ⟨names.dropLast,?_,fun n hn => hplain n (mem_of_mem_dropLast hn)⟩
    rcases hout with rfl | rfl
    · exact .inl rfl
    · cases names with
      | nil => simp [filename] at hroot
      | cons n ns => exact .inr rfl
  · exact ⟨names,hout,hplain⟩
  · refine ⟨names++[e],?_,?_⟩
    · rcases hout with rfl | rfl
      · exact .inl rfl
      · exact .inr rfl
    · intro n hn
      rcases mem_append.mp hn with hn | hn
      · exact hplain n hn
      · obtain rfl := mem_singleton.mp hn
        exact ⟨hne,hsep,hdot,hdotDot⟩

lemma cleaned_foldl {es : List Bytes} (hes : ∀ e ∈ es,e≠[] ∧ pathSeparator ∉ e)
    {output : List Bytes} (h : Cleaned output) : Cleaned (es.foldl cleanStep output) := by
  induction es generalizing output with
  | nil => exact h
  | cons e es ih =>
    obtain ⟨hne,hsep⟩ := hes e (by simp)
    exact ih (fun e he => hes e (by simp [he])) (h.cleanStep hne hsep)

theorem cleaned_clean (path : Bytes) : Cleaned (clean path) := by
  have hnames : ∀ e ∈ (components path).filter (·≠[]) ++
      (if (components path).filter (·≠[])≠[] ∧ path.getLast? = some pathSeparator then [dot] else []),
      e≠[] ∧ pathSeparator ∉ e := by
    intro e he
    rcases mem_append.mp he with he | he
    · have he := mem_filter.mp he
      exact ⟨by simpa using he.2,not_mem_of_mem_components he.1⟩
    · split_ifs at he
      · obtain rfl := mem_singleton.mp he
        decide
      · simp at he
  unfold clean elements
  rw [append_assoc,foldl_append]
  refine cleaned_foldl hnames ?_
  split_ifs
  · exact ⟨[],.inr (by decide),by simp⟩
  · exact ⟨[],.inl rfl,by simp⟩

/-- The components left of a text that is cut at its first NUL byte. -/
def cutAtNul : List Bytes → List Bytes
  | [] => []
  | n::ns => if 0 ∈ n then [cString n] else n::cutAtNul ns

lemma cString_append {n : Bytes} (h : 0 ∉ n) (r : Bytes) : cString (n++r) = n++cString r := by
  refine takeWhile_append_of_pos fun b hb => ?_
  simpa using fun heq : b = 0 => h (heq ▸ hb)

lemma cString_append_of_mem {n : Bytes} (h : 0 ∈ n) (r : Bytes) : cString (n++r) = cString n := by
  unfold cString
  rw [takeWhile_append,if_neg]
  intro hlen
  have hall := takeWhile_eq_self_iff.mp
    (( takeWhile_prefix (l := n) fun b => decide (b≠0)).eq_of_length hlen)
  simpa using hall 0 h

lemma cString_intercalate (ns : List Bytes) :
    cString ([pathSeparator].intercalate ns) = [pathSeparator].intercalate (cutAtNul ns) := by
  induction ns with
  | nil => rfl
  | cons n ns ih =>
    by_cases h : 0 ∈ n
    · rw [cutAtNul,if_pos h]
      cases ns with
      | nil => simp
      | cons m ms => rw [intercalate_cons_cons,append_assoc,cString_append_of_mem h]; simp
    · rw [cutAtNul,if_neg h]
      cases ns with
      | nil => simpa [cutAtNul,cString] using cString_append h []
      | cons m ms =>
        have hne : cutAtNul (m::ms)≠[] := by unfold cutAtNul; split_ifs <;> simp
        rw [intercalate_cons_cons,intercalate_cons_of_ne_nil hne,← ih,append_assoc,
          cString_append h,cString_append (n := [pathSeparator]) (by decide),append_assoc]

lemma mem_cutAtNul {ns : List Bytes} {m : Bytes} : m ∈ cutAtNul ns ↔
    m ∈ ns.takeWhile (fun n => 0 ∉ n) ∨ m ∈ (ns.find? fun n => 0 ∈ n).map cString := by
  induction ns with
  | nil => simp [cutAtNul]
  | cons n ns ih => by_cases h : 0 ∈ n <;> simp [cutAtNul,h,ih,eq_comm,or_assoc]

theorem components_cString (path : Bytes) : components (cString path) = cutAtNul (components path) := by
  have hpath : path = [pathSeparator].intercalate (components path) :=
    (intercalate_splitOn pathSeparator).symm
  have hne : cutAtNul (components path)≠[] := by
    obtain ⟨n,ns,hns⟩ := exists_cons_of_ne_nil (splitOn_ne_nil pathSeparator path)
    rw [components,hns,cutAtNul]
    split_ifs <;> simp
  conv_lhs => rw [hpath,cString_intercalate]
  refine splitOn_intercalate _ (fun m hm => ?_) hne
  rcases mem_cutAtNul.mp hm with hm | hm
  · exact not_mem_of_mem_components (( takeWhile_prefix _).subset hm)
  · obtain ⟨n,hn,rfl⟩ := Option.mem_map.mp hm
    exact fun h => not_mem_of_mem_components (mem_of_find?_eq_some hn)
      (( takeWhile_prefix _).subset h)

lemma components_string {output : List Bytes} (h : Cleaned output) :
    (∀ n ∈ components (string output),n = [] ∨ Plain n) ∧
      (components (string output)).find? (fun n => 0 ∈ n) = output.find? fun n => 0 ∈ n := by
  obtain ⟨names,hout,hplain⟩ := h
  have hsplit : names≠[] → components ([pathSeparator].intercalate names) = names := fun hne =>
    splitOn_intercalate _ (fun n hn => (hplain n hn).separator) hne
  rcases hout with rfl | rfl
  · cases output with
    | nil => simp [string,components]
    | cons n ns =>
      rw [string,if_neg (hplain n (by simp)).ne_rootElement,hsplit (by simp)]
      exact ⟨fun m hm => .inr (hplain m hm),rfl⟩
  · have hroot : components (string (rootElement::names)) =
        []::components ([pathSeparator].intercalate names) := by
      simp [string,components,rootElement,splitOn_cons_eq_if_modifyHead]
    rw [hroot]
    by_cases hne : names=[]
    · subst hne
      simp [components,rootElement,pathSeparator]
    · rw [hsplit hne]
      refine ⟨fun m hm => ?_,by simp [rootElement,pathSeparator]⟩
      rcases mem_cons.mp hm with rfl | hm
      exacts [.inl rfl,.inr (hplain m hm)]

def IsDots (n : Bytes) : Prop := n = dot ∨ n=dotDot

instance (n : Bytes) : Decidable (IsDots n) := inferInstanceAs (Decidable (_ ∨ _))

/-- The directory names that a path stands for where no symbolic links are. -/
def resolve (path : Bytes) : List Bytes :=
  (components path).foldl
    (fun names n => if n=[] ∨ n=dot then names else if n=dotDot then names.dropLast else names++[n])
    []

structure Confined (baseDirectory path : Bytes) : Prop where
  noDots : ∀ n ∈ components path,¬IsDots n
  under : path=baseDirectory ∨ withSeparator baseDirectory <+: path

lemma resolve_of_noDots {path : Bytes} (h : ∀ n ∈ components path,¬IsDots n) :
    resolve path = (components path).filter (·≠[]) := by
  have hfold : ∀ (ns names : List Bytes),(∀ n ∈ ns,¬IsDots n) → ns.foldl (fun names n =>
      if n=[] ∨ n=dot then names else if n=dotDot then names.dropLast else names++[n]) names =
        names++ns.filter (·≠[]) := by
    intro ns
    induction ns with
    | nil => simp
    | cons n ns ih =>
      intro names hns
      have hn := not_or.mp (hns n (by simp))
      rw [foldl_cons,ih _ fun m hm => hns m (by simp [hm])]
      by_cases hnil : n = [] <;> simp [hnil,hn.1,hn.2]
  rw [resolve,hfold _ [] h,nil_append]

/-- A confined path stands for the base directory or for something below it. -/
theorem Confined.resolve_prefix {baseDirectory path : Bytes} (h : Confined baseDirectory path) :
    resolve baseDirectory <+: resolve path := by
  rcases h.under with rfl | ⟨rest,hrest⟩
  · exact prefix_rfl
  · obtain ⟨front,hfront,hnames⟩ : ∃ front,withSeparator baseDirectory = front++[pathSeparator] ∧
        (components baseDirectory = components front ∨
          components baseDirectory = components front++[[]]) := by
      unfold withSeparator
      split_ifs with hlast
      · obtain ⟨front,rfl⟩ := getLast?_eq_some_iff.mp hlast
        exact ⟨front,rfl,.inr (by simp [components,splitOn_append_cons_self])⟩
      · exact ⟨baseDirectory,rfl,.inl rfl⟩
    have hpath : components path = components front++components rest := by
      rw [← hrest,hfront,append_assoc,singleton_append]
      exact splitOn_append_cons_self _ _
    have hbase : ∀ n ∈ components baseDirectory,¬IsDots n := by
      have hdots := h.noDots
      rw [hpath] at hdots
      intro n hn
      rcases hnames with heq | heq
      · exact hdots n (by simp [← heq,hn])
      · rcases mem_append.mp (heq ▸ hn) with hn | hn
        · exact hdots n (by simp [hn])
        · obtain rfl := mem_singleton.mp hn
          decide
    rw [resolve_of_noDots h.noDots,resolve_of_noDots hbase,hpath,filter_append]
    rcases hnames with heq | heq <;> simp [heq]

/-- The start of the first cleaned element that holds a NUL byte. -/
def nulName (filePath : Bytes) : Option Bytes := ((clean filePath).find? fun n => 0 ∈ n).map cString

lemma noDots_cString_cleanPath (filePath : Bytes) :
    (∀ n ∈ components (cString (cleanPath filePath)), ¬IsDots n) ↔ ∀ n ∈ nulName filePath,¬IsDots n := by
  obtain ⟨hplain,hfind⟩ := components_string (cleaned_clean filePath)
  rw [components_cString,nulName,← hfind]
  constructor
  · exact fun h n hn => h n (mem_cutAtNul.mpr (.inr hn))
  · intro h n hn
    rcases mem_cutAtNul.mp hn with hn | hn
    · rcases hplain n (( takeWhile_prefix _).subset hn) with rfl | hp
      · decide
      · exact not_or.mpr ⟨hp.ne_dot,hp.ne_dotDot⟩
    · exact h n hn

lemma getPathSafe_eq_ok {realpath : Bytes → Option Bytes} {filePath baseDirectory p : Bytes}
    (h : getPathSafe realpath filePath baseDirectory false = .ok p) :
    p = cString (cleanPath filePath) ∧ startsWithBaseDir p baseDirectory = true := by
  unfold getPathSafe getNormalizedPathSafe at h
  by_cases hbase : baseDirectory=[]
  · simp [hbase,throw,throwThe,MonadExceptOf.throw,bind,Except.bind] at h
  · by_cases hempty : cleanPath filePath = []
    · simp [hbase,hempty,bind,Except.bind] at h
    · by_cases hlong : pathMax < (cString (cleanPath filePath)).length
      · simp [hbase,hempty,hlong,bind,Except.bind] at h
      · by_cases hstart : startsWithBaseDir (cString (cleanPath filePath)) baseDirectory = true
        · obtain rfl : cString (cleanPath filePath) = p := by
            simpa [hbase,hempty,hlong,hstart,bind,Except.bind,pure,Except.pure] using h
          exact ⟨rfl,hstart⟩
        · simp [hbase,hempty,hlong,hstart,bind,Except.bind,pure,Except.pure,throw,throwThe,
            MonadExceptOf.throw] at h

end QuicWestwood.SafePath
