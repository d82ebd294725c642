import QuicWestwood.HeaderTable

/-! The static tables are header tables of their own, filled from the back with a capacity that exactly fits. -/
namespace QuicWestwood
open ByteCodec HeaderTable

def ascii (s : String) : Bytes := s.toUTF8.toList

lemma length_toList_loop (bytes : ByteArray) (i : ℕ) (r : Bytes) :
    (ByteArray.toList.loop bytes i r).length = r.length+(bytes.size-i) := by
  fun_induction ByteArray.toList.loop bytes i r with
  | case1 i r h ih =>
    rw [ih,List.length_cons]
    omega
  | case2 i r h =>
    rw [List.length_reverse]
    omega

lemma ascii_ne_nil {s : String} (h : s ≠ "") : ascii s≠[] := by
  intro hnil
  have hlen : (ascii s).length = s.utf8ByteSize := by
    unfold ascii ByteArray.toList
    rw [length_toList_loop]
    simp
  rw [hnil] at hlen
  exact h (String.utf8ByteSize_eq_zero_iff.mp hlen.symm)

def staticEntries (entries : List (String × String)) : List HPACKHeader :=
  entries.map fun e => ⟨ascii e.1,ascii e.2⟩

def staticHeaderTable (headers : List HPACKHeader) : HeaderTable :=
  headers.foldr (fun header t => (t.add header).2) (init (total headers))

namespace HPACK

def staticTableEntries : List (String × String) := [
  (":authority",""),(":method","GET"),(":method","POST"),(":path","/"),(":path","/index.html"),
  (":scheme","http"),(":scheme","https"),(":status","200"),(":status","204"),(":status","206"),
  (":status","304"),(":status","400"),(":status","404"),(":status","500"),("accept-charset",""),
  ("accept-encoding","gzip, deflate"),("accept-language",""),("accept-ranges",""),("accept",""),
  ("access-control-allow-origin",""),("age",""),("allow",""),("authorization",""),
  ("cache-control",""),("content-disposition",""),("content-encoding",""),("content-language",""),
  ("content-length",""),("content-location",""),("content-range",""),("content-type",""),
  ("cookie",""),("date",""),("etag",""),("expect",""),("expires",""),("from",""),("host",""),
  ("if-match",""),("if-modified-since",""),("if-none-match",""),("if-range",""),
  ("if-unmodified-since",""),("last-modified",""),("link",""),("location",""),("max-forwards",""),
  ("proxy-authenticate",""),("proxy-authorization",""),("range",""),("referer",""),("refresh",""),
  ("retry-after",""),("server",""),("set-cookie",""),("strict-transport-security",""),
  ("transfer-encoding",""),("user-agent",""),("vary",""),("via",""),("www-authenticate","")]

def staticTable : HeaderTable := staticHeaderTable (staticEntries staticTableEntries)

end HPACK

namespace QPACK

def staticTableEntries : List (String × String) := [
  (":authority",""),(":path","/"),("age","0"),("content-disposition",""),("content-length","0"),
  ("cookie",""),("date",""),("etag",""),("if-modified-since",""),("if-none-match",""),
  ("last-modified",""),("link",""),("location",""),("referer",""),("set-cookie",""),
  (":method","CONNECT"),(":method","DELETE"),(":method","GET"),(":method","HEAD"),
  (":method","OPTIONS"),(":method","POST"),(":method","PUT"),(":scheme","http"),
  (":scheme","https"),(":status","103"),(":status","200"),(":status","304"),(":status","404"),
  (":status","503"),("accept","*/*"),("accept","application/dns-message"),
  ("accept-encoding","gzip, deflate, br"),("accept-ranges","bytes"),
  ("access-control-allow-headers","cache-control"),("access-control-allow-headers","content-type"),
  ("access-control-allow-origin","*"),("cache-control","max-age=0"),
  ("cache-control","max-age=2592000"),("cache-control","max-age=604800"),("cache-control","no-cache"),
  ("cache-control","no-store"),("cache-control","public, max-age=31536000"),("content-encoding","br"),
  ("content-encoding","gzip"),("content-type","application/dns-message"),
  ("content-type","application/javascript"),("content-type","application/json"),
  ("content-type","application/x-www-form-urlencoded"),("content-type","image/gif"),
  ("content-type","image/jpeg"),("content-type","image/png"),("content-type","text/css"),
  ("content-type","text/html; charset=utf-8"),("content-type","text/plain"),
  ("content-type","text/plain;charset=utf-8"),("range","bytes=0-"),
  ("strict-transport-security","max-age=31536000"),
  ("strict-transport-security","max-age=31536000; includesubdomains"),
  ("strict-transport-security","max-age=31536000; includesubdomains; preload"),
  ("vary","accept-encoding"),("vary","origin"),("x-content-type-options","nosniff"),
  ("x-xss-protection","1; mode=block"),(":status","100"),(":status","204"),(":status","206"),
  (":status","302"),(":status","400"),(":status","403"),(":status","421"),(":status","425"),
  (":status","500"),("accept-language",""),("access-control-allow-credentials","FALSE"),
  ("access-control-allow-credentials","TRUE"),("access-control-allow-headers","*"),
  ("access-control-allow-methods","get"),("access-control-allow-methods","get, post, options"),
  ("access-control-allow-methods","options"),("access-control-expose-headers","content-length"),
  ("access-control-request-headers","content-type"),("access-control-request-method","get"),
  ("access-control-request-method","post"),("alt-svc","clear"),("authorization",""),
  ("content-security-policy","script-src 'none'; object-src 'none'; base-uri 'none'"),("early-data","1"),
  ("expect-ct",""),("forwarded",""),("if-range",""),("origin",""),("purpose","prefetch"),
  ("server",""),("timing-allow-origin","*"),("upgrade-insecure-requests","1"),("user-agent",""),
  ("x-forwarded-for",""),("x-frame-options","deny"),("x-frame-options","sameorigin")]

def staticTable : HeaderTable := staticHeaderTable (staticEntries staticTableEntries)

end QPACK

/-! ## What the static tables hold -/

variable (headers : List HPACKHeader)

lemma foldr_add_becomes {capacity : ℕ} (h : total headers ≤ capacity) :
    HeaderTable.Becomes (init capacity)
      (headers.foldr (fun header t => (t.add header).2) (init capacity)) headers capacity := by
  induction headers with
  | nil => exact ⟨init_wellFormed capacity,rfl,rfl,rfl⟩
  | cons header headers ih =>
    rw [total_cons] at h
    have hrest := ih (by omega)
    obtain ⟨-,hadd⟩ := add_fits hrest.wellFormed (show header.bytes ≤ _ by rw [hrest.capacity_eq]; omega)
    rw [List.foldr_cons]
    refine ⟨hadd.wellFormed,?_,hadd.capacity_eq.trans hrest.capacity_eq,hadd.indexNames_eq.trans hrest.indexNames_eq⟩
    rw [hadd.entries_eq,hrest.entries_eq,hrest.capacity_eq,keep_eq_self (by omega)]

lemma staticHeaderTable_becomes :
    HeaderTable.Becomes (init (total headers)) (staticHeaderTable headers) headers
      (total headers) :=
  foldr_add_becomes headers le_rfl

lemma entries_staticHeaderTable : (staticHeaderTable headers).entries = headers :=
  (staticHeaderTable_becomes headers).entries_eq

end QuicWestwood
