import SimplefinBridge.IdEncoding
import SimplefinBridge.Library.Segments

/-!
# Requests of the securities page

The page that shows the securities runs the bank's own application, and
`allowedMytradeRequest` decides which of its requests are sent.  Behind
`/mytrade/api/` it is to let reads through, the exchange of the bank login, and
nothing that names an order or another action.  Two kinds of requests slip
through (`mytrade_reads_iff`): the patterns do not look at the segment that
stands directly behind the root, and the portfolio is posted to any origin.
-/

namespace SimplefinBridge

open Segments (behind laterWord laterWord_iff)

/-- What `new URL(text)` says of a request: a path is printable, as the parser
escapes everything else. -/
structure RequestUrl where
  origin : String
  pathname : String
  printable : pathname.toList.all isPrintableChar = true

def HAPOALIM_ORIGIN : String := "https://login.bankhapoalim.co.il"

/-- `url.pathname.toLowerCase()` -/
def RequestUrl.lowered (url : RequestUrl) : List Char := url.pathname.toList.map Char.toLower

def mytradeRoot : List Char := "/mytrade/api/".toList

/-- `pathname.endsWith(endpoint)` -/
def RequestUrl.endsWith (url : RequestUrl) (endpoint : String) : Bool :=
  endpoint.toList.isSuffixOf url.lowered

/-- `.` in a pattern: no line terminator. -/
def isPatternDot (c : Char) : Bool := c.val ∉ [0x0A, 0x0D, 0x2028, 0x2029]

/-- `orders?|trades?` -/
def orderWords : List (List Char) :=
  ["order", "orders", "trade", "trades"].map String.toList

def actionWords : List (List Char) :=
  ["buy", "sell", "cancel", "create", "submit", "execute", "transfer", "withdraw",
    "deposit"].map String.toList

/-- `/\/mytrade\/api\/.*\/(?:words)(?:\/|$)/.test(pathname)` -/
def testsWord (words : List (List Char)) (path : List Char) : Bool :=
  (behind mytradeRoot path).any (laterWord '/' isPatternDot words)

def isHistoryRead (url : RequestUrl) (method : String) : Bool :=
  method = "GET" && url.endsWith "/mytrade/api/v2/json2/order/executions/history"

/-- The login is exchanged and the account initialized before any read. -/
def sessionBootstrap (url : RequestUrl) : Bool :=
  url.origin = HAPOALIM_ORIGIN &&
    ["/mytrade/api/v2/json2/login/sso", "/mytrade/api/v2/json2/account/init"].any url.endsWith

def isAccountView (url : RequestUrl) : Bool := url.endsWith "/mytrade/api/v2/json2/account/view"

def isReadMethod (method : String) : Bool := method ∈ ["GET", "HEAD", "OPTIONS"]

def allowedMytradeRequest (url : RequestUrl) (method : String) : Bool :=
  if ¬ mytradeRoot <:+: url.lowered then true
  else
    let history := isHistoryRead url method
    let order := testsWord orderWords url.lowered
    let action := testsWord actionWords url.lowered
    if order && !history || action then false
    else isReadMethod method || (method = "POST" && (sessionBootstrap url || isAccountView url))

/-! ## What the patterns find -/

def forbiddenWords : List (List Char) := orderWords ++ actionWords

/-- A segment behind the root is a forbidden word. -/
def namesAction (path : List Char) : Bool :=
  (behind mytradeRoot path).any fun rest => (rest.splitOn '/').any (· ∈ forbiddenWords)

/-- The segment directly behind the root is a forbidden word. -/
def namesActionFirst (path : List Char) : Bool :=
  (behind mytradeRoot path).any fun rest => (rest.splitOn '/').head?.any (· ∈ forbiddenWords)

/-- A later segment behind the root is a forbidden word. -/
def namesActionLater (path : List Char) : Bool :=
  (behind mytradeRoot path).any fun rest => (rest.splitOn '/').tail.any (· ∈ forbiddenWords)

theorem namesAction_eq (path : List Char) :
    namesAction path = (namesActionFirst path || namesActionLater path) := by
  have hsegments : ∀ segments : List (List Char), segments.any (· ∈ forbiddenWords) =
      (segments.head?.any (· ∈ forbiddenWords) || segments.tail.any (· ∈ forbiddenWords)) := by
    intro segments
    cases segments with
    | nil => rfl
    | cons first rest => rfl
  unfold namesAction namesActionFirst namesActionLater
  induction behind mytradeRoot path with
  | nil => rfl
  | cons rest others ih =>
      rw [List.any_cons, List.any_cons, List.any_cons, ih, hsegments]
      ac_rfl

section
variable {url : RequestUrl}

/-- A printable character is no line terminator, in lower case either. -/
theorem isPatternDot_lowered {c : Char} (hc : c ∈ url.lowered) : isPatternDot c = true := by
  obtain ⟨d, hd, rfl⟩ := List.mem_map.mp hc
  have hprintable := List.all_eq_true.mp url.printable d hd
  have hall : ∀ n < 128, isPrintableChar (Char.ofNat n) = true →
      isPatternDot (Char.ofNat n).toLower = true := by
    decide +kernel
  have hsmall : d.toNat < 128 := by
    unfold isPrintableChar at hprintable
    simp only [Bool.and_eq_true, decide_eq_true_eq, UInt32.le_iff_toNat_le] at hprintable
    have hhigh : UInt32.toNat 0x7E = 126 := rfl
    have hvalue : d.val.toNat = d.toNat := rfl
    omega
  have hchar := hall d.toNat hsmall
  rw [Char.ofNat_toNat] at hchar
  exact hchar hprintable

/-- **A pattern** finds its words among the segments behind the root, but not
in the first of them. -/
theorem testsWord_eq {words : List (List Char)} (hwords : ∀ word ∈ words, '/' ∉ word) :
    testsWord words url.lowered =
      (behind mytradeRoot url.lowered).any fun rest => (rest.splitOn '/').tail.any (· ∈ words) := by
  unfold testsWord
  have hsame : ∀ rest ∈ behind mytradeRoot url.lowered,
      laterWord '/' isPatternDot words rest = (rest.splitOn '/').tail.any (· ∈ words) := by
    intro rest hrest
    have hdot : ∀ c ∈ rest, isPatternDot c = true := fun c hc =>
      isPatternDot_lowered
        ((Segments.mem_behind.mp hrest).subset (List.mem_append_right _ hc))
    rw [Bool.eq_iff_iff, laterWord_iff hwords hdot, List.any_eq_true]
    simp only [decide_eq_true_eq]
  rw [Bool.eq_iff_iff, List.any_eq_true, List.any_eq_true]
  constructor
  · rintro ⟨rest, hrest, hfound⟩
    exact ⟨rest, hrest, (hsame rest hrest).symm.trans hfound⟩
  · rintro ⟨rest, hrest, hfound⟩
    exact ⟨rest, hrest, (hsame rest hrest).trans hfound⟩

theorem testsWord_forbidden :
    (testsWord orderWords url.lowered || testsWord actionWords url.lowered) =
      namesActionLater url.lowered := by
  have horder : ∀ word ∈ orderWords, '/' ∉ word := by decide
  have haction : ∀ word ∈ actionWords, '/' ∉ word := by decide
  have hsegments : ∀ segments : List (List Char), segments.any (· ∈ forbiddenWords) =
      (segments.any (· ∈ orderWords) || segments.any (· ∈ actionWords)) := by
    intro segments
    rw [Bool.eq_iff_iff, Bool.or_eq_true, List.any_eq_true, List.any_eq_true, List.any_eq_true,
      ← exists_or]
    refine exists_congr fun segment => ?_
    unfold forbiddenWords
    rw [decide_eq_true_eq, decide_eq_true_eq, decide_eq_true_eq, List.mem_append, and_or_left]
  rw [testsWord_eq horder, testsWord_eq haction]
  unfold namesActionLater
  induction behind mytradeRoot url.lowered with
  | nil => rfl
  | cons rest others ih =>
      rw [List.any_cons, List.any_cons, List.any_cons, ← ih, hsegments]
      ac_rfl

/-! ## What is let through -/

variable {method : String}

theorem isHistoryRead_post : isHistoryRead url "POST" = false := by
  unfold isHistoryRead
  rw [Bool.and_eq_false_iff]
  exact .inl (by decide)

/-- A portfolio endpoint stands behind the root. -/
theorem root_of_isAccountView (h : isAccountView url = true) : mytradeRoot <:+: url.lowered := by
  have hsuffix : "/mytrade/api/v2/json2/account/view".toList <:+ url.lowered :=
    List.isSuffixOf_iff_suffix.mp h
  have hroot : mytradeRoot <+: "/mytrade/api/v2/json2/account/view".toList := by decide
  exact hroot.isInfix.trans hsuffix.isInfix

/-- What the guard lets through that is no history read. -/
theorem allowed_iff (hroot : mytradeRoot <:+: url.lowered)
    (hhistory : isHistoryRead url method = false) :
    allowedMytradeRequest url method = true ↔ namesActionLater url.lowered = false ∧
      (isReadMethod method = true ∨
        method = "POST" ∧ (sessionBootstrap url = true ∨ isAccountView url = true)) := by
  unfold allowedMytradeRequest
  rw [if_neg (not_not.mpr hroot), hhistory]
  dsimp only
  rw [Bool.not_false, Bool.and_true, testsWord_forbidden]
  cases namesActionLater url.lowered with
  | true => simp
  | false => simp [Bool.or_eq_true, Bool.and_eq_true]

/-- A request that a reader of the page may send. -/
structure ReadsMytrade (url : RequestUrl) (method : String) : Prop where
  noAction : namesAction url.lowered = false
  reads : isReadMethod method = true ∨ method = "POST" ∧ url.origin = HAPOALIM_ORIGIN ∧
    ["/mytrade/api/v2/json2/account/view", "/mytrade/api/v2/json2/login/sso",
      "/mytrade/api/v2/json2/account/init"].any url.endsWith = true

/-- A forbidden word stands directly behind the root and nowhere later, in a
request of a kind that is let through. -/
structure SlipsBehindRoot (url : RequestUrl) (method : String) : Prop where
  first : namesActionFirst url.lowered = true
  later : namesActionLater url.lowered = false
  noHistory : isHistoryRead url method = false
  kind : isReadMethod method = true ∨
    method = "POST" ∧ (sessionBootstrap url = true ∨ isAccountView url = true)

/-- The portfolio is posted to another origin. -/
structure PostsElsewhere (url : RequestUrl) (method : String) : Prop where
  post : method = "POST"
  view : isAccountView url = true
  origin : url.origin ≠ HAPOALIM_ORIGIN
  later : namesActionLater url.lowered = false

theorem root_of_namesActionFirst (h : namesActionFirst url.lowered = true) :
    mytradeRoot <:+: url.lowered := by
  obtain ⟨rest, hrest, -⟩ := List.any_eq_true.mp h
  exact (List.prefix_append mytradeRoot rest).isInfix.trans
    (Segments.mem_behind.mp hrest).isInfix

theorem not_readsMytrade_of_slips (h : SlipsBehindRoot url method) : ¬ ReadsMytrade url method := by
  intro hreads
  have hnames := hreads.noAction
  rw [namesAction_eq, h.first] at hnames
  cases hnames

theorem not_readsMytrade_of_posts (h : PostsElsewhere url method) : ¬ ReadsMytrade url method := by
  intro hreads
  rcases hreads.reads with hmethod | ⟨-, horigin, -⟩
  · rw [h.post] at hmethod
    revert hmethod
    decide
  · exact h.origin horigin

/-- **The page can only read**, but for requests that name an action directly
behind the root and portfolios posted to other origins. -/
theorem mytrade_reads_iff (url : RequestUrl) (method : String) :
    (mytradeRoot <:+: url.lowered → allowedMytradeRequest url method = true →
      isHistoryRead url method = true ∨ ReadsMytrade url method) ↔
        ¬ SlipsBehindRoot url method ∧ ¬ PostsElsewhere url method := by
  constructor
  · intro h
    constructor
    · intro hslips
      have hroot := root_of_namesActionFirst hslips.first
      have hallowed := (allowed_iff hroot hslips.noHistory).mpr ⟨hslips.later, hslips.kind⟩
      rcases h hroot hallowed with hhistory | hreads
      · rw [hslips.noHistory] at hhistory
        cases hhistory
      · exact not_readsMytrade_of_slips hslips hreads
    · intro hposts
      have hroot := root_of_isAccountView hposts.view
      have hhistory : isHistoryRead url method = false := by
        rw [hposts.post]
        exact isHistoryRead_post
      have hallowed := (allowed_iff hroot hhistory).mpr
        ⟨hposts.later, .inr ⟨hposts.post, .inr hposts.view⟩⟩
      rcases h hroot hallowed with hread | hreads
      · rw [hhistory] at hread
        cases hread
      · exact not_readsMytrade_of_posts hposts hreads
  · rintro ⟨hslips, hposts⟩ hroot hallowed
    cases hhistory : isHistoryRead url method with
    | true => exact .inl rfl
    | false =>
        obtain ⟨hlater, hkind⟩ := (allowed_iff hroot hhistory).mp hallowed
        have hfirst : namesActionFirst url.lowered = false := by
          rw [← Bool.not_eq_true]
          exact fun hfirst => hslips ⟨hfirst, hlater, hhistory, hkind⟩
        refine .inr ⟨?_, ?_⟩
        · rw [namesAction_eq, hfirst, hlater]
          rfl
        · rcases hkind with hread | ⟨hpost, hbootstrap | hview⟩
          · exact .inl hread
          · obtain ⟨horigin, hendpoint⟩ := Bool.and_eq_true_iff.mp hbootstrap
            refine .inr ⟨hpost, of_decide_eq_true horigin, ?_⟩
            rw [List.any_cons, hendpoint, Bool.or_true]
          · have horigin : url.origin = HAPOALIM_ORIGIN := by
              by_contra hother
              exact hposts ⟨hpost, hview, hother, hlater⟩
            refine .inr ⟨hpost, horigin, ?_⟩
            have hendpoint : url.endsWith "/mytrade/api/v2/json2/account/view" = true := hview
            rw [List.any_cons, hendpoint, Bool.true_or]

end

/-- An order endpoint of the bank, read. -/
def orderUrl : RequestUrl where
  origin := HAPOALIM_ORIGIN
  pathname := "/ServerServices/mytrade/api/order"
  printable := by decide

/-- The order endpoint is let through, as nothing stands between it and the
root. -/
theorem order_let_through :
    ¬ ∀ (url : RequestUrl) (method : String), mytradeRoot <:+: url.lowered →
      allowedMytradeRequest url method = true →
        isHistoryRead url method = true ∨ ReadsMytrade url method := by
  intro h
  rcases h orderUrl "GET" (by decide) (by decide) with hhistory | hreads
  · revert hhistory
    decide
  · have hnames := hreads.noAction
    revert hnames
    decide

end SimplefinBridge
