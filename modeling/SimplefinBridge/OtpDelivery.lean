import Mathlib.Algebra.Order.BigOperators.Group.List
import SimplefinBridge.OtpBroker

/-!
# Every code is delivered once

A delivered message stays on the persisted list for seven days, and a lease
takes no message that is older than the lease: once a message has left the list,
every lease is younger than it (`Guards`).  While it lives, a lease keeps the
message it took among the recent candidates, so it takes no message twice
(`LeaseInv`).  From these `otp_single_delivery`.
-/

namespace SimplefinBridge

variable {host : Host} {timestampOf : String → Int}

/-! ## The persisted list is loadable -/

/-- `sha256` is printed with 64 digits. -/
def Digests (host : Host) : Prop := ∀ text, (host.sha256 text).utf8ByteSize = 64

/-- A list that the next start loads. -/
structure Loadable (entries : List ConsumedEntry) : Prop where
  length_le : entries.length ≤ maxConsumed
  entry : ∀ e ∈ entries, e.hash.utf8ByteSize = 64 ∧ e.atTime ≠ 0

/-- A fraction has at most nine digits. -/
theorem fractionDigits_le (t : Int) : fractionDigits t ≤ 9 := by
  unfold fractionDigits
  cases hfind : (List.range 10).find? fun digits =>
      decide (t % 1000000000 % 10 ^ (9 - digits) = 0) with
  | none => exact le_refl 9
  | some digits =>
      have hmem := List.mem_of_find?_eq_some hfind
      rw [List.mem_range] at hmem
      exact Nat.le_of_lt_succ hmem

/-- An entry has at most 114 bytes. -/
theorem entryBytes_le {e : ConsumedEntry} (h : e.hash.utf8ByteSize = 64) : entryBytes e ≤ 114 := by
  have hdigits := fractionDigits_le e.atTime
  unfold entryBytes timeBytes
  rw [h]
  split_ifs
  · omega
  · omega

/-- So a list of them fits into the file. -/
theorem Loadable.jsonBytes_le {entries : List ConsumedEntry} (h : Loadable entries) :
    jsonBytes entries ≤ 2 * 1024 * 1024 := by
  have hsum : (entries.map entryBytes).sum ≤ (entries.map entryBytes).length * 114 := by
    refine List.sum_le_card_nsmul _ 114 fun bytes hbytes => ?_
    obtain ⟨e, he, rfl⟩ := List.mem_map.mp hbytes
    exact entryBytes_le (h.entry e he).1
  have hlength := h.length_le
  rw [List.length_map] at hsum
  unfold jsonBytes
  unfold maxConsumed at hlength
  omega

/-- A file that can be loaded is loaded. -/
theorem readConsumed_of_loadable {file : Option (List ConsumedEntry)}
    (h : ∀ entries ∈ file, Loadable entries) : readConsumed file = some (file.getD []) := by
  cases file with
  | none => rfl
  | some entries =>
      have hload := h entries rfl
      unfold readConsumed
      dsimp only
      rw [if_neg (not_lt.mpr hload.jsonBytes_le), if_neg (not_lt.mpr hload.length_le), if_neg]
      · rfl
      · rw [Bool.not_eq_true, List.any_eq_false]
        intro e he
        obtain ⟨hbytes, htime⟩ := hload.entry e he
        simp [hbytes, htime]

/-- An empty list can be loaded. -/
theorem loadable_nil : Loadable [] := ⟨Nat.zero_le _, fun _ h => nomatch h⟩

/-- What a delivery keeps is loadable. -/
theorem loadable_kept {now : Int} {b : Broker} {r : Lease} (h : Loadable b.consumed)
    (hdelivers : Delivers now b r) (hhash : r.messageHash.utf8ByteSize = 64) (hnow : 0 < now) :
    Loadable (keptConsumed now b r) := by
  constructor
  · unfold keptConsumed
    rw [List.length_append, List.length_singleton]
    exact hdelivers.room
  · intro e he
    unfold keptConsumed at he
    rcases List.mem_append.mp he with hkept | hnew
    · exact h.entry e (List.mem_filter.mp hkept).1
    · obtain rfl := List.mem_singleton.mp hnew
      exact ⟨hhash, ne_of_gt hnow⟩

/-! ## The invariant -/

namespace OtpReceiver

/-- Too old for the current lease and for every lease to come. -/
def Past (w : OtpReceiver) (t : Int) : Prop :=
  t < w.now ∧ ∀ b ∈ w.process, ∀ r ∈ b.request, t < r.armedAt

/-- A delivered message is on the list, or too old. -/
def Guards (host : Host) (w : OtpReceiver) (entries : List ConsumedEntry) : Prop :=
  ∀ d ∈ w.deliveries, ∀ a ∈ w.accepted, a.grant = d.grant →
    (∃ e ∈ entries, e.hash = host.sha256 a.message.id ∧
        a.message.timestamp ≤ e.atTime + goSecond) ∨ w.Past a.message.timestamp

/-- An accepted message came for its lease from a listed sender. -/
structure Eligible (w : OtpReceiver) (a : Acceptance) (lease : Lease) : Prop where
  granted : w.grants[a.grant]? = some lease
  provider : a.message.provider = lease.provider
  sender : a.message.sender ∈ a.allowed
  armed : lease.armedAt ≤ a.message.timestamp

/-- The only message accepted for the lease. -/
def Only (w : OtpReceiver) (a : Acceptance) : Prop :=
  a ∈ w.accepted ∧ ∀ a' ∈ w.accepted, a'.grant = a.grant → a' = a

/-- The delivered code comes from the only message accepted for the lease. -/
structure Provenance (w : OtpReceiver) (d : Delivery) (a : Acceptance) : Prop where
  grant : a.grant = d.grant
  only : w.Only a
  granted : ∃ lease, w.Eligible a lease ∧ d.lease.id = lease.id ∧ d.lease.armedAt = lease.armedAt
  code : d.lease.code = a.message.code

/-- The message has not been delivered. -/
def Undelivered (w : OtpReceiver) (id : String) : Prop :=
  ∀ d ∈ w.deliveries, ∀ a ∈ w.accepted, a.grant = d.grant → a.message.id ≠ id

/-- The current lease: the last one granted, with no message, or with one
message that has not been delivered, or spent. -/
structure LeaseInv (host : Host) (w : OtpReceiver) (b : Broker) (r : Lease) : Prop where
  granted : ∃ lease, w.grants[w.grant]? = some lease ∧ r.id = lease.id ∧
    r.provider = lease.provider ∧ r.armedAt = lease.armedAt
  armed_le : r.armedAt ≤ w.now
  expires : r.expiresAt = r.armedAt + leaseDuration
  undelivered : r.delivered = false → ∀ d ∈ w.deliveries, d.grant ≠ w.grant
  vacant : r.messageHash = "" → r.code = "" ∧ ∀ a ∈ w.accepted, a.grant ≠ w.grant
  held : r.messageHash ≠ "" → r.expiresAt ≤ w.now ∨
    ∃ entry ∈ b.seen, entry.1 = r.messageHash ∧ r.armedAt ≤ entry.2
  coded : r.code ≠ "" → ∃ a, a.grant = w.grant ∧ w.Only a ∧ r.code = a.message.code ∧
    r.messageHash = host.sha256 a.message.id ∧ w.Undelivered a.message.id

/-- What a running broker may rely on. -/
structure BrokerInv (host : Host) (w : OtpReceiver) (b : Broker) : Prop where
  loadable : Loadable b.consumed
  guards : w.Guards host b.consumed
  sound : b.Sound
  lease : ∀ r ∈ b.request, w.LeaseInv host b r

/-- The invariant of the receiver. -/
structure Inv (host : Host) (timestampOf : String → Int) (w : OtpReceiver) : Prop where
  now_pos : 0 < w.now
  loadable : ∀ entries ∈ w.file, Loadable entries
  guards : w.Guards host (w.file.getD [])
  eligible : ∀ a ∈ w.accepted, ∃ lease, w.Eligible a lease
  stamped : ∀ a ∈ w.accepted, a.message.timestamp = timestampOf a.message.id ∧
    a.message.timestamp ≤ w.now + goSecond
  provenance : ∀ d ∈ w.deliveries, ∃ a, w.Provenance d a
  perLease : (w.deliveries.map Delivery.grant).Nodup
  perMessage : ∀ d ∈ w.deliveries, ∀ d' ∈ w.deliveries, ∀ a ∈ w.accepted, ∀ a' ∈ w.accepted,
    a.grant = d.grant → a'.grant = d'.grant → a.message.id = a'.message.id → d = d'
  broker : ∀ b ∈ w.process, w.BrokerInv host b

/-- A new receiver. -/
theorem inv_fresh (host : Host) (timestampOf : String → Int) {now : Int} (h : 0 < now) :
    Inv host timestampOf { now } where
  now_pos := h
  loadable _ hfile := nomatch hfile
  guards _ hd := nomatch hd
  eligible _ ha := nomatch ha
  stamped _ ha := nomatch ha
  provenance _ hd := nomatch hd
  perLease := List.nodup_nil
  perMessage _ hd := nomatch hd
  broker _ hb := nomatch hb

/-- Requests that come later are younger. -/
theorem Past.mono {w w' : OtpReceiver} {t : Int} (h : w.Past t) (hnow : w.now ≤ w'.now)
    (hrequest : ∀ b' ∈ w'.process, ∀ r' ∈ b'.request, w.now ≤ r'.armedAt ∨
      ∃ b ∈ w.process, ∃ r ∈ b.request, r.armedAt ≤ r'.armedAt) : w'.Past t := by
  obtain ⟨hpast, hleases⟩ := h
  refine ⟨lt_of_lt_of_le hpast hnow, fun b' hb' r' hr' => ?_⟩
  rcases hrequest b' hb' r' hr' with hyoung | ⟨b, hb, r, hr, hle⟩
  · exact lt_of_lt_of_le hpast hyoung
  · exact lt_of_lt_of_le (hleases b hb r hr) hle

/-- A list that guards every delivery still does. -/
theorem Guards.mono {w w' : OtpReceiver} {entries : List ConsumedEntry} (h : w.Guards host entries)
    (hdeliveries : w'.deliveries = w.deliveries) (haccepted : w'.accepted = w.accepted)
    (hnow : w.now ≤ w'.now)
    (hrequest : ∀ b' ∈ w'.process, ∀ r' ∈ b'.request, w.now ≤ r'.armedAt ∨
      ∃ b ∈ w.process, ∃ r ∈ b.request, r.armedAt ≤ r'.armedAt) : w'.Guards host entries := by
  intro d hd a ha hgrant
  rw [hdeliveries] at hd
  rw [haccepted] at ha
  exact (h d hd a ha hgrant).imp id fun hpast => hpast.mono hnow hrequest

/-- What a delivery keeps still guards: an entry that is a week old is older
than the lease. -/
theorem Guards.kept {w : OtpReceiver} {b : Broker} {r : Lease} (h : w.Guards host b.consumed)
    (hprocess : w.process = some b) (hdelivers : Delivers w.now b r)
    (hexpires : r.expiresAt = r.armedAt + leaseDuration) :
    w.Guards host (keptConsumed w.now b r) := by
  intro d hd a ha hgrant
  rcases h d hd a ha hgrant with ⟨e, he, hhash, htime⟩ | hpast
  · by_cases hrecent : w.now - e.atTime < 7 * 24 * 3600 * goSecond
    · exact .inl ⟨e, List.mem_append_left _ (List.mem_filter.mpr ⟨he, decide_eq_true hrecent⟩),
        hhash, htime⟩
    · have hlive := hdelivers.unexpired
      rw [hexpires] at hlive
      unfold leaseDuration goSecond at hlive
      unfold goSecond at htime hrecent
      refine .inr ⟨by omega, fun b' hb' r' hr' => ?_⟩
      rw [Option.mem_def, hprocess] at hb'
      obtain rfl := Option.some.inj hb'
      rw [Option.mem_def, hdelivers.request] at hr'
      obtain rfl := Option.some.inj hr'
      omega
  · exact .inr hpast

/-! ## What the steps preserve -/

/-- A message is accepted for a lease that was granted. -/
theorem Inv.grant_lt {w : OtpReceiver} (h : Inv host timestampOf w) {a : Acceptance}
    (ha : a ∈ w.accepted) : a.grant < w.grants.length := by
  obtain ⟨lease, heligible⟩ := h.eligible a ha
  exact (List.getElem?_eq_some_iff.mp heligible.granted).1

/-- So is a code delivered. -/
theorem Inv.delivery_grant_lt {w : OtpReceiver} (h : Inv host timestampOf w) {d : Delivery}
    (hd : d ∈ w.deliveries) : d.grant < w.grants.length := by
  obtain ⟨a, ha⟩ := h.provenance d hd
  rw [← ha.grant]
  exact h.grant_lt ha.only.1

/-- A step that leaves the history alone keeps what the invariant says of it. -/
theorem Inv.frame {w w' : OtpReceiver} (h : Inv host timestampOf w) (hnow : w.now ≤ w'.now)
    (hgrants : w'.grants = w.grants) (haccepted : w'.accepted = w.accepted)
    (hdeliveries : w'.deliveries = w.deliveries) (hload : ∀ entries ∈ w'.file, Loadable entries)
    (hguards : w'.Guards host (w'.file.getD [])) (hbroker : ∀ b ∈ w'.process, w'.BrokerInv host b) :
    Inv host timestampOf w' := by
  obtain ⟨now, file, process, grants, accepted, deliveries⟩ := w'
  obtain rfl : grants = w.grants := hgrants
  obtain rfl : accepted = w.accepted := haccepted
  obtain rfl : deliveries = w.deliveries := hdeliveries
  have heligible : ∀ {a : Acceptance} {lease : Lease}, w.Eligible a lease →
      Eligible ⟨now, file, process, w.grants, w.accepted, w.deliveries⟩ a lease :=
    fun h => ⟨h.1, h.2, h.3, h.4⟩
  exact {
    now_pos := lt_of_lt_of_le h.now_pos hnow
    loadable := hload
    guards := hguards
    eligible := fun a ha => by
      obtain ⟨lease, hlease⟩ := h.eligible a ha
      exact ⟨lease, heligible hlease⟩
    stamped := fun a ha => by
      obtain ⟨hstamp, hle⟩ := h.stamped a ha
      dsimp only at hnow ⊢
      exact ⟨hstamp, by omega⟩
    provenance := fun d hd => by
      obtain ⟨a, hgrant, honly, ⟨lease, hlease, hsame⟩, hcode⟩ := h.provenance d hd
      exact ⟨a, hgrant, honly, ⟨lease, heligible hlease, hsame⟩, hcode⟩
    perLease := h.perLease
    perMessage := h.perMessage
    broker := hbroker }

/-- Time passes. -/
theorem Inv.tick {w : OtpReceiver} (h : Inv host timestampOf w) (elapsed : Nat) :
    Inv host timestampOf { w with now := w.now + elapsed } := by
  have hnow : w.now ≤ w.now + (elapsed : Int) := by omega
  have hpast : ∀ entries, w.Guards host entries →
      Guards host { w with now := w.now + elapsed } entries := fun entries hguards =>
    hguards.mono rfl rfl hnow fun b hb r hr => .inr ⟨b, hb, r, hr, le_rfl⟩
  refine h.frame hnow rfl rfl rfl h.loadable (hpast _ h.guards) fun b hb => ?_
  have hbroker := h.broker b hb
  refine ⟨hbroker.loadable, hpast _ hbroker.guards, hbroker.sound, fun r hr => ?_⟩
  have hlease := hbroker.lease r hr
  exact {
    granted := hlease.granted
    armed_le := le_trans hlease.armed_le hnow
    expires := hlease.expires
    undelivered := hlease.undelivered
    vacant := hlease.vacant
    held := fun hhash => (hlease.held hhash).imp (fun hexpired => le_trans hexpired hnow) id
    coded := hlease.coded }

/-- The process ends; the file is the old one, or the one a delivery would have
kept. -/
theorem Inv.stopped {w : OtpReceiver} (h : Inv host timestampOf w)
    {file : Option (List ConsumedEntry)} (hload : ∀ entries ∈ file, Loadable entries)
    (hguards : w.Guards host (file.getD [])) :
    Inv host timestampOf { w with process := none, file := file } :=
  h.frame le_rfl rfl rfl rfl hload
    (hguards.mono rfl rfl le_rfl fun _ hb => nomatch hb) fun _ hb => nomatch hb

/-- A new process knows the persisted list and holds no lease. -/
theorem Inv.started {w : OtpReceiver} (h : Inv host timestampOf w) (config : OtpConfig) :
    Inv host timestampOf { w with process := serveReceiver config w.file } := by
  have hstart : ∀ b ∈ serveReceiver config w.file, b.request = none ∧ b.terminal = false ∧
      b.consumed = w.file.getD [] := by
    intro b hb
    obtain ⟨hrequest, hterminal, hread⟩ := serveReceiver_spec hb
    rw [readConsumed_of_loadable h.loadable] at hread
    exact ⟨hrequest, hterminal, (Option.some.inj hread).symm⟩
  have hguards : Guards host { w with process := serveReceiver config w.file } (w.file.getD []) :=
    h.guards.mono rfl rfl le_rfl fun b hb r hr => by
      rw [(hstart b hb).1] at hr
      cases hr
  refine h.frame le_rfl rfl rfl rfl h.loadable hguards fun b hb => ?_
  obtain ⟨hrequest, hterminal, hconsumed⟩ := hstart b hb
  refine ⟨?_, ?_, fun h => ?_, fun r hr => ?_⟩
  · rw [hconsumed]
    cases hfile : w.file with
    | none => exact loadable_nil
    | some entries => exact h.loadable entries hfile
  · rw [hconsumed]
    exact hguards
  · rw [hterminal] at h
    cases h
  · rw [hrequest] at hr
    cases hr

/-- An operation that neither grants nor fills nor delivers. -/
theorem Inv.quiet {w : OtpReceiver} {b b' : Broker} (h : Inv host timestampOf w)
    (hprocess : w.process = some b) (hquiet : Quiet w.now b b')
    {file : Option (List ConsumedEntry)} (hload : ∀ entries ∈ file, Loadable entries)
    (hguards : w.Guards host (file.getD [])) :
    Inv host timestampOf { w with process := some b', file := file } := by
  have hbroker := h.broker b hprocess
  have hrequest : ∀ r ∈ b'.request, r ∈ b.request := by
    intro r hr
    rcases hquiet.request with hnone | hsame
    · rw [hnone] at hr
      cases hr
    · rw [← hsame]
      exact hr
  have hpast : ∀ entries, w.Guards host entries →
      Guards host { w with process := some b', file := file } entries := by
    intro entries hentries
    refine hentries.mono rfl rfl le_rfl fun b₁ hb₁ r hr => .inr ⟨b, hprocess, r, ?_, le_rfl⟩
    obtain rfl := Option.some.inj hb₁
    exact hrequest r hr
  refine h.frame le_rfl rfl rfl rfl hload (hpast _ hguards) fun b₁ hb₁ => ?_
  obtain rfl := Option.some.inj hb₁
  refine ⟨?_, ?_, hquiet.sound hbroker.sound, fun r hr => ?_⟩
  · rw [hquiet.consumed]
    exact hbroker.loadable
  · rw [hquiet.consumed]
    exact hpast _ hbroker.guards
  · have hlease := hbroker.lease r (hrequest r hr)
    exact {
      granted := hlease.granted
      armed_le := hlease.armed_le
      expires := hlease.expires
      undelivered := hlease.undelivered
      vacant := hlease.vacant
      held := fun hhash => by
        rcases hlease.held hhash with hexpired | ⟨entry, hentry, hsame, harmed⟩
        · exact .inl hexpired
        · rcases hquiet.seen entry hentry with hkept | hold
          · exact .inr ⟨entry, hkept, hsame, harmed⟩
          · -- a candidate leaves after ten minutes, the lease ends after three
            refine .inl ?_
            have hexpires := hlease.expires
            unfold leaseDuration goSecond at hexpires
            unfold goSecond at hold
            dsimp only
            omega
      coded := hlease.coded }

end OtpReceiver

namespace OtpReceiver

/-- After `arm` granted a lease. -/
def afterArm (w : OtpReceiver) (b : Broker) (lease : Lease) : OtpReceiver :=
  { w with process := some { b with request := some lease }, grants := w.grants ++ [lease] }

/-- A lease is granted. -/
theorem Inv.armed {w : OtpReceiver} {b : Broker} (h : Inv host timestampOf w)
    (hprocess : w.process = some b) (honline : b.online = true) (provider : OtpProvider)
    (name : String) :
    Inv host timestampOf
      (w.afterArm b ⟨name, provider, w.now, w.now + leaseDuration, "", "", false, false⟩) := by
  have hbroker := h.broker b hprocess
  generalize hnew : (⟨name, provider, w.now, w.now + leaseDuration, "", "", false, false⟩ : Lease) =
    new
  have hyoung : new.armedAt = w.now := by rw [← hnew]
  have hpast : ∀ {t : Int}, w.Past t → (w.afterArm b new).Past t := by
    intro t ht
    refine ht.mono le_rfl fun b₁ hb₁ r hr => .inl ?_
    obtain rfl := Option.some.inj hb₁
    obtain rfl := Option.some.inj hr
    exact le_of_eq hyoung.symm
  have heligible : ∀ {a : Acceptance} {lease : Lease}, w.Eligible a lease →
      (w.afterArm b new).Eligible a lease := by
    rintro a lease ⟨hgranted, hprovider, hsender, harmed⟩
    refine ⟨?_, hprovider, hsender, harmed⟩
    unfold afterArm
    rw [List.getElem?_append_left (List.getElem?_eq_some_iff.mp hgranted).1]
    exact hgranted
  have hlast : (w.afterArm b new).grant = w.grants.length := by
    unfold afterArm grant
    rw [List.length_append, List.length_singleton]
    omega
  exact {
    now_pos := h.now_pos
    loadable := h.loadable
    guards := fun d hd a ha hgrant => (h.guards d hd a ha hgrant).imp id hpast
    eligible := fun a ha => by
      obtain ⟨lease, hlease⟩ := h.eligible a ha
      exact ⟨lease, heligible hlease⟩
    stamped := h.stamped
    provenance := fun d hd => by
      obtain ⟨a, hgrant, honly, ⟨lease, hlease, hsame⟩, hcode⟩ := h.provenance d hd
      exact ⟨a, hgrant, honly, ⟨lease, heligible hlease, hsame⟩, hcode⟩
    perLease := h.perLease
    perMessage := h.perMessage
    broker := fun b₁ hb₁ => by
      obtain rfl := Option.some.inj hb₁
      refine ⟨hbroker.loadable, fun d hd a ha hgrant =>
        (hbroker.guards d hd a ha hgrant).imp id hpast, fun hterminal => ?_, fun r hr => ?_⟩
      · have hoffline := (hbroker.sound hterminal).1
        rw [honline] at hoffline
        cases hoffline
      · obtain rfl := Option.some.inj hr
        exact {
          granted := ⟨new, by rw [hlast]; exact List.getElem?_concat_length, rfl, rfl, rfl⟩
          armed_le := le_of_eq hyoung
          expires := by rw [← hnew]
          undelivered := fun _ d hd => by
            rw [hlast]
            exact ne_of_lt (h.delivery_grant_lt hd)
          vacant := fun _ => ⟨by rw [← hnew], fun a ha => by
            rw [hlast]
            exact ne_of_lt (h.grant_lt ha)⟩
          held := fun hhash => absurd (by rw [← hnew]) hhash
          coded := fun hcode => absurd (by rw [← hnew]) hcode } }

/-- After the lease took a message. -/
def afterTake (host : Host) (w : OtpReceiver) (b : Broker) (m : OtpMessage) (rule : ProviderRule)
    (r : Lease) : OtpReceiver :=
  { w with
    process := some { b with
      seen := (host.sha256 m.id, w.now) :: recentlySeen w.now b
      request := some (storeCode (host.sha256 m.id) m.code r) }
    accepted := w.accepted ++ [⟨w.grant, m, rule.senders⟩] }

/-- Storing a code leaves the lease what it is. -/
theorem storeCode_same (hash code : String) (r : Lease) :
    (storeCode hash code r).id = r.id ∧ (storeCode hash code r).provider = r.provider ∧
      (storeCode hash code r).armedAt = r.armedAt ∧ (storeCode hash code r).expiresAt = r.expiresAt ∧
      (storeCode hash code r).delivered = r.delivered := by
  unfold storeCode
  split_ifs
  · exact ⟨rfl, rfl, rfl, rfl, rfl⟩
  · exact ⟨rfl, rfl, rfl, rfl, rfl⟩

section
variable {w : OtpReceiver} {b : Broker} {m : OtpMessage} {rule : ProviderRule} {r : Lease}

/-- A message that the lease takes has not been delivered: it is not on the
list, and not older than the lease. -/
theorem Inv.undelivered_of_takes (h : Inv host timestampOf w) (hprocess : w.process = some b)
    (htakes : Takes host w.now m b rule r) (hstamp : m.timestamp = timestampOf m.id) :
    w.Undelivered m.id := by
  intro d hd a ha hgrant hsame
  rcases (h.broker b hprocess).guards d hd a ha hgrant with ⟨e, he, hhash, -⟩ | hold
  · rw [hsame] at hhash
    exact htakes.unconsumed (List.mem_map.mpr ⟨e, he, hhash⟩)
  · have hyoung := hold.2 b hprocess r htakes.request
    rw [(h.stamped a ha).1, hsame, ← hstamp] at hyoung
    exact absurd htakes.armed (not_le.mpr hyoung)

/-- The lease does not hold the message already. -/
theorem LeaseInv.not_held (h : w.LeaseInv host b r) (htakes : Takes host w.now m b rule r) :
    r.messageHash ≠ "" → r.messageHash ≠ host.sha256 m.id := by
  intro hhash heq
  rcases h.held hhash with hexpired | ⟨entry, hentry, hentryHash, -⟩
  · exact absurd htakes.unexpired (not_lt.mpr hexpired)
  · exact htakes.unseen (List.mem_map.mpr ⟨entry, hentry, hentryHash.trans heq⟩)

/-- The first message brings the code, a second makes the lease ambiguous. -/
theorem LeaseInv.taken (hdigests : Digests host) (h : w.LeaseInv host b r)
    (htakes : Takes host w.now m b rule r) (hunsent : w.Undelivered m.id) :
    (w.afterTake host b m rule r).LeaseInv host
      { b with seen := (host.sha256 m.id, w.now) :: recentlySeen w.now b
               request := some (storeCode (host.sha256 m.id) m.code r) }
      (storeCode (host.sha256 m.id) m.code r) := by
  obtain ⟨hid, hprovider, harmed, hexpires, hdelivered⟩ :=
    storeCode_same (host.sha256 m.id) m.code r
  have hfresh := h.undelivered htakes.undelivered
  have hkeyed : host.sha256 m.id ≠ "" := by
    intro hempty
    have hbytes := hdigests m.id
    rw [hempty] at hbytes
    cases hbytes
  obtain ⟨lease, hgranted, hsameId, hsameProvider, hsameArmed⟩ := h.granted
  refine ⟨⟨lease, hgranted, hid.trans hsameId, hprovider.trans hsameProvider,
    harmed.trans hsameArmed⟩, ?_, ?_, fun _ => hfresh, ?_, ?_, ?_⟩
  · rw [harmed]
    exact h.armed_le
  · rw [harmed, hexpires]
    exact h.expires
  · unfold storeCode
    split_ifs with hsecond
    · exact fun hempty => absurd hempty hsecond.1
    · exact fun hempty => absurd hempty hkeyed
  · rw [harmed, hexpires]
    unfold storeCode
    split_ifs with hsecond
    · intro hhash
      rcases h.held hhash with hexpired | ⟨entry, hentry, hsame, hle⟩
      · exact .inl hexpired
      · by_cases hrecent : w.now - entry.2 ≤ 600 * goSecond
        · exact .inr ⟨entry, List.mem_cons_of_mem _
            (List.mem_filter.mpr ⟨hentry, decide_eq_true hrecent⟩), hsame, hle⟩
        · have hlive := htakes.unexpired
          rw [h.expires] at hlive
          unfold leaseDuration goSecond at hlive
          unfold goSecond at hrecent
          omega
    · exact fun _ => .inr ⟨_, List.mem_cons_self, rfl, h.armed_le⟩
  · intro hcode
    unfold storeCode at hcode ⊢
    split_ifs at hcode ⊢ with hsecond
    · exact absurd rfl hcode
    · have hvacant : r.messageHash = "" := by
        by_contra hhash
        exact hsecond ⟨hhash, h.not_held htakes hhash⟩
      have hnone := (h.vacant hvacant).2
      refine ⟨⟨w.grant, m, rule.senders⟩, rfl, ⟨List.mem_append_right _ List.mem_cons_self, ?_⟩,
        rfl, rfl, ?_⟩
      · intro a' ha' hgrant'
        rcases List.mem_append.mp ha' with hold | hnew
        · exact absurd hgrant' (hnone a' hold)
        · exact List.mem_singleton.mp hnew
      · intro d hd a' ha' hgrant'
        rcases List.mem_append.mp ha' with hold | hnew
        · exact hunsent d hd a' hold hgrant'
        · obtain rfl := List.mem_singleton.mp hnew
          exact absurd hgrant'.symm (hfresh d hd)

/-- The lease takes a message. -/
theorem Inv.taken (hdigests : Digests host) (h : Inv host timestampOf w)
    (hprocess : w.process = some b) (htakes : Takes host w.now m b rule r)
    (hstamp : m.timestamp = timestampOf m.id) :
    Inv host timestampOf (w.afterTake host b m rule r) := by
  have hbroker := h.broker b hprocess
  have hlease := hbroker.lease r htakes.request
  obtain ⟨lease, hgranted, -, hprovider, harmed⟩ := hlease.granted
  -- no delivery is for the current lease, so the new message is of no delivery
  have hfresh := hlease.undelivered htakes.undelivered
  have hkept : ∀ {d : Delivery} {a : Acceptance}, d ∈ w.deliveries →
      a ∈ (w.afterTake host b m rule r).accepted → a.grant = d.grant → a ∈ w.accepted := by
    intro d a hd ha hgrant
    rcases List.mem_append.mp ha with hold | hnew
    · exact hold
    · obtain rfl := List.mem_singleton.mp hnew
      exact absurd hgrant.symm (hfresh d hd)
  have hguards : ∀ {entries}, w.Guards host entries →
      (w.afterTake host b m rule r).Guards host entries := by
    intro entries hentries d hd a ha hgrant
    refine (hentries d hd a (hkept hd ha hgrant) hgrant).imp id fun hpast =>
      hpast.mono le_rfl fun b₁ hb₁ r₁ hr₁ => .inr ⟨b, hprocess, r, htakes.request, ?_⟩
    obtain rfl := Option.some.inj hb₁
    obtain rfl := Option.some.inj hr₁
    exact le_of_eq (storeCode_same _ _ r).2.2.1.symm
  exact {
    now_pos := h.now_pos
    loadable := h.loadable
    guards := hguards h.guards
    eligible := fun a ha => by
      rcases List.mem_append.mp ha with hold | hnew
      · obtain ⟨lease₁, h₁⟩ := h.eligible a hold
        exact ⟨lease₁, h₁.1, h₁.2, h₁.3, h₁.4⟩
      · obtain rfl := List.mem_singleton.mp hnew
        exact ⟨lease, hgranted, htakes.provider.symm.trans hprovider, htakes.sender,
          harmed ▸ htakes.armed⟩
    stamped := fun a ha => by
      rcases List.mem_append.mp ha with hold | hnew
      · exact h.stamped a hold
      · obtain rfl := List.mem_singleton.mp hnew
        exact ⟨hstamp, htakes.past⟩
    provenance := fun d hd => by
      obtain ⟨a, hgrant, ⟨hmem, honly⟩, ⟨lease₁, h₁, hsame₁⟩, hcode⟩ := h.provenance d hd
      exact ⟨a, hgrant, ⟨List.mem_append_left _ hmem, fun a' ha' hgrant' =>
        honly a' (hkept hd ha' (hgrant'.trans hgrant)) hgrant'⟩,
        ⟨lease₁, ⟨h₁.1, h₁.2, h₁.3, h₁.4⟩, hsame₁⟩, hcode⟩
    perLease := h.perLease
    perMessage := fun d hd d' hd' a ha a' ha' hgrant hgrant' hids =>
      h.perMessage d hd d' hd' a (hkept hd ha hgrant) a' (hkept hd' ha' hgrant') hgrant hgrant' hids
    broker := fun b₁ hb₁ => by
      obtain rfl := Option.some.inj hb₁
      refine ⟨hbroker.loadable, hguards hbroker.guards, fun hterminal => ?_, fun r₁ hr₁ => ?_⟩
      · have hoffline := (hbroker.sound hterminal).1
        rw [htakes.online] at hoffline
        cases hoffline
      · obtain rfl := Option.some.inj hr₁
        exact hlease.taken hdigests htakes (h.undelivered_of_takes hprocess htakes hstamp) }

/-- After `wait` returned the code. -/
def afterDelivery (w : OtpReceiver) (b : Broker) (r : Lease) : OtpReceiver :=
  { w with
    file := some (keptConsumed w.now b r)
    process := some { b with
      consumed := keptConsumed w.now b r
      request := some { r with code := "", delivered := true } }
    deliveries := w.deliveries ++ [⟨w.grant, r⟩] }

/-- The list that a delivery persists is loadable and still guards. -/
theorem Inv.kept (hdigests : Digests host) (h : Inv host timestampOf w)
    (hprocess : w.process = some b) (hdelivers : Delivers w.now b r) :
    Loadable (keptConsumed w.now b r) ∧ w.Guards host (keptConsumed w.now b r) := by
  have hbroker := h.broker b hprocess
  have hlease := hbroker.lease r hdelivers.request
  obtain ⟨a, -, -, -, hhash, -⟩ := hlease.coded hdelivers.code
  exact ⟨loadable_kept hbroker.loadable hdelivers (hhash ▸ hdigests a.message.id) h.now_pos,
    hbroker.guards.kept hprocess hdelivers hlease.expires⟩

/-- The code is returned. -/
theorem Inv.delivered (hdigests : Digests host) (h : Inv host timestampOf w)
    (hprocess : w.process = some b) (hdelivers : Delivers w.now b r) :
    Inv host timestampOf (w.afterDelivery b r) := by
  have hbroker := h.broker b hprocess
  have hlease := hbroker.lease r hdelivers.request
  have hfresh := hlease.undelivered hdelivers.undelivered
  obtain ⟨hload, hguardsKept⟩ := h.kept hdigests hprocess hdelivers
  obtain ⟨a₀, hgrant₀, ⟨hmem₀, honly₀⟩, hcode₀, hhash₀, hunsent⟩ := hlease.coded hdelivers.code
  have hpast : ∀ {t : Int}, w.Past t → (w.afterDelivery b r).Past t := by
    intro t ht
    refine ht.mono le_rfl fun b₁ hb₁ r₁ hr₁ => .inr ⟨b, hprocess, r, hdelivers.request, ?_⟩
    obtain rfl := Option.some.inj hb₁
    obtain rfl := Option.some.inj hr₁
    exact le_rfl
  have hguards : (w.afterDelivery b r).Guards host (keptConsumed w.now b r) := by
    intro d hd a ha hgrant
    rcases List.mem_append.mp hd with hold | hnew
    · exact (hguardsKept d hold a ha hgrant).imp id hpast
    · obtain rfl := List.mem_singleton.mp hnew
      obtain rfl := honly₀ a ha (hgrant.trans hgrant₀.symm)
      exact .inl ⟨⟨r.messageHash, w.now⟩, List.mem_append_right _ List.mem_cons_self, hhash₀,
        (h.stamped a ha).2⟩
  exact {
    now_pos := h.now_pos
    loadable := fun entries hentries => by
      obtain rfl := Option.some.inj hentries
      exact hload
    guards := hguards
    eligible := fun a ha => by
      obtain ⟨lease, h₁⟩ := h.eligible a ha
      exact ⟨lease, h₁.1, h₁.2, h₁.3, h₁.4⟩
    stamped := h.stamped
    provenance := fun d hd => by
      rcases List.mem_append.mp hd with hold | hnew
      · obtain ⟨a, hgrant, honly, ⟨lease, h₁, hsame⟩, hcode⟩ := h.provenance d hold
        exact ⟨a, hgrant, honly, ⟨lease, ⟨h₁.1, h₁.2, h₁.3, h₁.4⟩, hsame⟩, hcode⟩
      · obtain rfl := List.mem_singleton.mp hnew
        obtain ⟨lease, h₁⟩ := h.eligible a₀ hmem₀
        obtain ⟨current, hcurrent, hid, -, harmed⟩ := hlease.granted
        have hsame : lease = current := by
          have hgranted := h₁.granted
          rw [hgrant₀, hcurrent] at hgranted
          exact (Option.some.inj hgranted).symm
        subst hsame
        exact ⟨a₀, hgrant₀, ⟨hmem₀, honly₀⟩, ⟨lease, ⟨h₁.1, h₁.2, h₁.3, h₁.4⟩, hid, harmed⟩, hcode₀⟩
    perLease := by
      change ((w.deliveries ++ [(⟨w.grant, r⟩ : Delivery)]).map Delivery.grant).Nodup
      rw [List.map_append, List.nodup_append]
      refine ⟨h.perLease, List.nodup_singleton _, fun g hg g' hg' => ?_⟩
      obtain ⟨d, hd, rfl⟩ := List.mem_map.mp hg
      obtain rfl := List.mem_singleton.mp hg'
      exact hfresh d hd
    perMessage := fun d hd d' hd' a ha a' ha' hgrant hgrant' hids => by
      rcases List.mem_append.mp hd with hold | hnew
      · rcases List.mem_append.mp hd' with hold' | hnew'
        · exact h.perMessage d hold d' hold' a ha a' ha' hgrant hgrant' hids
        · obtain rfl := List.mem_singleton.mp hnew'
          obtain rfl := honly₀ a' ha' (hgrant'.trans hgrant₀.symm)
          exact absurd hids (hunsent d hold a ha hgrant)
      · obtain rfl := List.mem_singleton.mp hnew
        obtain rfl := honly₀ a ha (hgrant.trans hgrant₀.symm)
        rcases List.mem_append.mp hd' with hold' | hnew'
        · exact absurd hids.symm (hunsent d' hold' a' ha' hgrant')
        · exact (List.mem_singleton.mp hnew').symm
    broker := fun b₁ hb₁ => by
      obtain rfl := Option.some.inj hb₁
      refine ⟨hload, hguards, fun hterminal => ?_, fun r₁ hr₁ => ?_⟩
      · have hoffline := (hbroker.sound hterminal).1
        rw [hdelivers.online] at hoffline
        cases hoffline
      · obtain rfl := Option.some.inj hr₁
        exact {
          granted := hlease.granted
          armed_le := hlease.armed_le
          expires := hlease.expires
          undelivered := fun hflag => nomatch hflag
          vacant := fun hempty => ⟨rfl, (hlease.vacant hempty).2⟩
          held := hlease.held
          coded := fun hcode => absurd rfl hcode } }

end

end OtpReceiver

/-! ## Steps -/

/-- The receiver is not reported online in a state that ends it, and stopping is
reported as offline. -/
def OtpEvent.Reported : OtpEvent → Prop
  | .setHealth online state => online = true → state.isFailure = false ∧ state ≠ .stopping
  | _ => True

/-- A message id always comes with the same timestamp. -/
def OtpEvent.Stamped (timestampOf : String → Int) : OtpEvent → Prop
  | .accept m => m.timestamp = timestampOf m.id
  | _ => True

/-- The file as it was, or as a delivery would leave it. -/
def KeptFile (w : OtpReceiver) (b : Broker) (file : Option (List ConsumedEntry)) : Prop :=
  file = w.file ∨ ∃ r, Delivers w.now b r ∧ file = some (keptConsumed w.now b r)

/-- What a step does to the receiver. -/
inductive OtpEffect (host : Host) (w : OtpReceiver) : OtpEvent → OtpReceiver → Prop
  | idle (event : OtpEvent) : OtpEffect host w event w
  | tick (elapsed : Nat) : OtpEffect host w (.tick elapsed) { w with now := w.now + elapsed }
  | started (config : OtpConfig) (hnone : w.process = none) :
      OtpEffect host w (.start config) { w with process := serveReceiver config w.file }
  | stopped (event : OtpEvent) (b : Broker) (hprocess : w.process = some b)
      (file : Option (List ConsumedEntry)) (hfile : KeptFile w b file) :
      OtpEffect host w event { w with process := none, file := file }
  | quiet (event : OtpEvent) (b b' : Broker) (hprocess : w.process = some b)
      (hquiet : Quiet w.now b b') (file : Option (List ConsumedEntry)) (hfile : KeptFile w b file) :
      OtpEffect host w event { w with process := some b', file := file }
  | taken (m : OtpMessage) (b : Broker) (rule : ProviderRule) (r : Lease)
      (hprocess : w.process = some b) (htakes : Takes host w.now m b rule r) :
      OtpEffect host w (.accept m) (w.afterTake host b m rule r)
  | armed (event : OtpEvent) (b : Broker) (hprocess : w.process = some b) (honline : b.online = true)
      (provider : OtpProvider) (name : String) :
      OtpEffect host w event
        (w.afterArm b ⟨name, provider, w.now, w.now + leaseDuration, "", "", false, false⟩)
  | delivered (event : OtpEvent) (b : Broker) (r : Lease) (hprocess : w.process = some b)
      (hdelivers : Delivers w.now b r) : OtpEffect host w event (w.afterDelivery b r)

/-- A broker that changes quietly. -/
theorem OtpEffect.ofQuiet {w : OtpReceiver} {event : OtpEvent} {b b' : Broker}
    (hprocess : w.process = some b) (hquiet : Quiet w.now b b') :
    OtpEffect host w event { w with process := some b' } :=
  .quiet event b b' hprocess hquiet w.file (.inl rfl)

/-- **Every step of a broker has such an effect.** -/
theorem brokerStep_effect (w : OtpWorld) {b : Broker} (hprocess : w.process = some b)
    {event : OtpEvent} (hreported : event.Reported) :
    OtpEffect host w.toOtpReceiver event (brokerStep host w b event).toOtpReceiver := by
  cases event with
  | tick elapsed => exact .tick elapsed
  | start config => exact .idle _
  | stop => exact .stopped _ b hprocess w.file (.inl rfl)
  | stopInWait provider id =>
      apply OtpEffect.stopped _ b hprocess
      cases hwait : waitOnce w.now provider id .written w.file b
      have heffect := waitOnce_effect w.now provider id .written w.file b
      rw [hwait] at heffect
      cases heffect with
      | refused _ _ => exact .inl rfl
      | failed r hdelivers _ _ hfile => exact hfile.imp_right fun hkept => ⟨r, hdelivers, hkept⟩
      | delivered r hdelivers _ => exact .inr ⟨r, hdelivers, rfl⟩
  | setHealth online state => exact .ofQuiet hprocess (quiet_setHealth w.now hreported b)
  | accept m =>
      rcases accept_cases host w.now m b with ⟨hquiet, hignored, -⟩ | ⟨rule, r, htakes, htook⟩
      · unfold brokerStep
        dsimp only
        rw [hignored, if_neg Bool.false_ne_true]
        exact .ofQuiet hprocess hquiet
      · unfold brokerStep OtpWorld.noteAccepted
        dsimp only
        rw [htook, if_pos rfl, htakes.configured]
        exact .taken m b rule r hprocess htakes
  | armCheck client provider =>
      unfold brokerStep
      dsimp only
      split_ifs
      · exact .idle _
      · exact .idle _
      · exact .idle _
  | armReady client ready =>
      unfold brokerStep
      dsimp only
      cases hstage : w.arms client with
      | idle => exact .idle _
      | committing provider => exact .idle _
      | checking provider => exact .ofQuiet hprocess (quiet_reportReady w.now ready b)
  | armCommit client random =>
      unfold brokerStep
      dsimp only
      cases hstage : w.arms client with
      | idle => exact .idle _
      | checking provider => exact .idle _
      | committing provider =>
          rcases armCommit_cases w.now provider random b with ⟨hsame, hrefused⟩ | ⟨id, honline, -, hgranted⟩
          · cases hcommit : armCommit w.now provider random b with
            | mk b' reply =>
                rw [hcommit] at hsame hrefused
                obtain rfl : b' = b := hsame
                dsimp only
                rw [hcommit]
                unfold OtpWorld.noteArmed
                cases reply with
                | granted lease => exact absurd rfl (hrefused lease)
                | receiver_unavailable => exact .ofQuiet hprocess (Quiet.refl w.now _)
                | request_active => exact .ofQuiet hprocess (Quiet.refl w.now _)
          · dsimp only
            rw [hgranted]
            exact .armed _ b hprocess honline provider id
  | cancel provider id => exact .ofQuiet hprocess (quiet_cancelLease w.now provider id b)
  | wait provider id outcome =>
      unfold brokerStep
      dsimp only
      cases hwait : waitOnce w.now provider id outcome w.file b with
      | mk file rest =>
          cases rest with
          | mk b' reply =>
              have heffect := waitOnce_effect w.now provider id outcome w.file b
              rw [hwait] at heffect
              unfold OtpWorld.noteReply
              cases heffect with
              | refused _ hreply =>
                  cases reply with
                  | code lease => exact absurd rfl (hreply lease)
                  | receiver_unavailable => exact .ofQuiet hprocess (Quiet.refl w.now b)
                  | request_gone => exact .ofQuiet hprocess (Quiet.refl w.now b)
                  | ambiguous_code => exact .ofQuiet hprocess (Quiet.refl w.now b)
                  | pending => exact .ofQuiet hprocess (Quiet.refl w.now b)
              | failed r hdelivers _ _ hfile =>
                  exact .quiet _ b _ hprocess (quiet_failWith w.now .state_write_failed b) file
                    (hfile.imp_right fun hkept => ⟨r, hdelivers, hkept⟩)
              | delivered r hdelivers _ => exact .delivered _ b r hprocess hdelivers

/-- A running broker takes the event. -/
theorem otpStep_running {w : OtpWorld} {b : Broker} (hprocess : w.process = some b)
    (event : OtpEvent) : otpStep host w event = brokerStep host w b event := by
  unfold otpStep
  rw [hprocess]

/-- So has every step of the receiver. -/
theorem otpStep_effect (w : OtpWorld) {event : OtpEvent} (hreported : event.Reported) :
    OtpEffect host w.toOtpReceiver event (otpStep host w event).toOtpReceiver := by
  rcases Option.eq_none_or_eq_some w.process with hnone | ⟨b, hprocess⟩
  · cases event with
    | tick elapsed =>
        have hstep : otpStep host w (.tick elapsed) = { w with now := w.now + elapsed } := by
          unfold otpStep
          rw [hnone]
        rw [hstep]
        exact .tick elapsed
    | start config =>
        have hstep : otpStep host w (.start config) =
            { w with process := serveReceiver config w.file } := by
          unfold otpStep
          rw [hnone]
        rw [hstep]
        exact .started config hnone
    | _ =>
        unfold otpStep
        rw [hnone]
        exact .idle _
  · rw [otpStep_running hprocess]
    exact brokerStep_effect w hprocess hreported

namespace OtpReceiver

/-- A file that is kept still guards. -/
theorem Inv.keptFile {w : OtpReceiver} {b : Broker} {file : Option (List ConsumedEntry)}
    (hdigests : Digests host) (h : Inv host timestampOf w) (hprocess : w.process = some b)
    (hfile : KeptFile w b file) :
    (∀ entries ∈ file, Loadable entries) ∧ w.Guards host (file.getD []) := by
  rcases hfile with rfl | ⟨r, hdelivers, rfl⟩
  · exact ⟨h.loadable, h.guards⟩
  · obtain ⟨hload, hguards⟩ := h.kept hdigests hprocess hdelivers
    exact ⟨fun entries hentries => by
      obtain rfl := Option.some.inj hentries
      exact hload, hguards⟩

/-- **Every step keeps the invariant.** -/
theorem Inv.step {w w' : OtpReceiver} {event : OtpEvent} (hdigests : Digests host)
    (h : Inv host timestampOf w) (hstamped : event.Stamped timestampOf)
    (heffect : OtpEffect host w event w') : Inv host timestampOf w' := by
  cases heffect with
  | idle => exact h
  | tick elapsed => exact h.tick elapsed
  | started config hnone => exact h.started config
  | stopped _ b hprocess file hfile =>
      obtain ⟨hload, hguards⟩ := h.keptFile hdigests hprocess hfile
      exact h.stopped hload hguards
  | quiet _ b b' hprocess hquiet file hfile =>
      obtain ⟨hload, hguards⟩ := h.keptFile hdigests hprocess hfile
      exact h.quiet hprocess hquiet hload hguards
  | taken m b rule r hprocess htakes => exact h.taken hdigests hprocess htakes hstamped
  | armed _ b hprocess honline provider name => exact h.armed hprocess honline provider name
  | delivered _ b r hprocess hdelivers => exact h.delivered hdigests hprocess hdelivers

end OtpReceiver

/-! ## Single delivery -/

/-- What holds of the history and of the files. -/
structure SingleDelivery (w : OtpReceiver) : Prop where
  perLease : (w.deliveries.map Delivery.grant).Nodup
  perMessage : ∀ d ∈ w.deliveries, ∀ d' ∈ w.deliveries, ∀ a a', w.Provenance d a →
    w.Provenance d' a' → a.message.id = a'.message.id → d = d'
  provenance : ∀ d ∈ w.deliveries, ∃ a, w.Provenance d a
  offline : ∀ b ∈ w.process, b.terminal = true → b.online = false
  reloads : ∀ senders code, newBroker senders code w.file =
    (configureProvider .clal senders code emptyBroker).map
      fun b => { b with consumed := w.file.getD [] }

/-- A code that the step returns is of a message on the persisted list. -/
def PersistedFirst (host : Host) (w w' : OtpReceiver) : Prop :=
  ∀ d ∈ w'.deliveries, d ∉ w.deliveries → ∃ a, w'.Provenance d a ∧
    host.sha256 a.message.id ∈ (w'.file.getD []).map ConsumedEntry.hash

/-- A receiver that failed for good stays so until the process ends. -/
def StaysTerminal (w w' : OtpReceiver) : Prop :=
  ∀ b ∈ w.process, b.terminal = true → ∀ b' ∈ w'.process, b'.terminal = true

namespace OtpReceiver

/-- The invariant allows one delivery. -/
theorem Inv.singleDelivery {w : OtpReceiver} (h : Inv host timestampOf w) : SingleDelivery w where
  perLease := h.perLease
  perMessage d hd d' hd' a a' ha ha' hids :=
    h.perMessage d hd d' hd' a ha.only.1 a' ha'.only.1 ha.grant ha'.grant hids
  provenance := h.provenance
  offline b hb hterminal := ((h.broker b hb).sound hterminal).1
  reloads senders code := by
    unfold newBroker
    rw [readConsumed_of_loadable h.loadable]
    cases configureProvider .clal senders code emptyBroker with
    | none => rfl
    | some b => rfl

/-- A code is on the disk before it is accepted. -/
theorem persistedFirst_of_effect {w w' : OtpReceiver} {event : OtpEvent}
    (h : Inv host timestampOf w) (h' : Inv host timestampOf w') (heffect : OtpEffect host w event w') :
    PersistedFirst host w w' := by
  intro d hd hnew
  cases heffect with
  | delivered _ b r hprocess hdelivers =>
      obtain rfl := List.mem_singleton.mp ((List.mem_append.mp hd).resolve_left hnew)
      obtain ⟨a, hprovenance⟩ := h'.provenance _ hd
      refine ⟨a, hprovenance, List.mem_map.mpr ⟨⟨r.messageHash, w.now⟩,
        List.mem_append_right _ List.mem_cons_self, ?_⟩⟩
      obtain ⟨a₀, hgrant₀, ⟨-, honly₀⟩, -, hhash₀, -⟩ :=
        ((h.broker b hprocess).lease r hdelivers.request).coded hdelivers.code
      rw [honly₀ a hprovenance.only.1 (hprovenance.grant.trans hgrant₀.symm)]
      exact hhash₀
  | _ => exact absurd hd hnew

/-- What is terminal stays so. -/
theorem staysTerminal_of_effect {w w' : OtpReceiver} {event : OtpEvent}
    (heffect : OtpEffect host w event w') : StaysTerminal w w' := by
  intro b hb hterminal b' hb'
  cases heffect with
  | idle =>
      obtain rfl := Option.mem_unique hb hb'
      exact hterminal
  | tick elapsed =>
      obtain rfl := Option.mem_unique hb hb'
      exact hterminal
  | started config hnone =>
      rw [hnone] at hb
      cases hb
  | stopped _ b₁ hprocess file hfile => cases hb'
  | quiet _ b₁ b₂ hprocess hquiet file hfile =>
      obtain rfl := Option.mem_unique hb hprocess
      obtain rfl := Option.some.inj hb'
      exact hquiet.terminal hterminal
  | taken m b₁ rule r hprocess htakes =>
      obtain rfl := Option.mem_unique hb hprocess
      obtain rfl := Option.some.inj hb'
      exact hterminal
  | armed _ b₁ hprocess honline provider name =>
      obtain rfl := Option.mem_unique hb hprocess
      obtain rfl := Option.some.inj hb'
      exact hterminal
  | delivered _ b₁ r hprocess hdelivers =>
      obtain rfl := Option.mem_unique hb hprocess
      obtain rfl := Option.some.inj hb'
      exact hterminal

end OtpReceiver

/-- **Every code is delivered once.**  In every run from a missing file, with
a clock that never goes back, message ids that keep their timestamps, and the
receiver reported online only in a state that does not end it: each lease
returns at most one code; each message is delivered at most once, whatever
leases, providers and restarts lie between; a returned code is of the only
message accepted for the lease, from a listed sender of its provider and not
older than the lease, and is on the persisted list before it is returned; once
terminal, the receiver stays offline until the process ends; and the next start
can load the list. -/
theorem otp_single_delivery (host : Host) (hdigests : Digests host) (timestampOf : String → Int)
    (now : Int) (hnow : 0 < now) (events : List OtpEvent) (hreported : ∀ e ∈ events, e.Reported)
    (hstamped : ∀ e ∈ events, e.Stamped timestampOf) :
    Runs.Along (otpStep host)
      (fun w _ w' => SingleDelivery w'.toOtpReceiver ∧
        PersistedFirst host w.toOtpReceiver w'.toOtpReceiver ∧
        StaysTerminal w.toOtpReceiver w'.toOtpReceiver)
      (freshOtpWorld now) events := by
  refine Runs.along_of_inputs (P := fun e => e.Reported ∧ e.Stamped timestampOf)
    (fun e he => ⟨hreported e he, hstamped e he⟩)
    (OtpReceiver.inv_fresh host timestampOf hnow :
      OtpReceiver.Inv host timestampOf (freshOtpWorld now).toOtpReceiver)
    fun w e (hinv : OtpReceiver.Inv host timestampOf w.toOtpReceiver) he => ?_
  have heffect := @otpStep_effect host w e he.1
  have hnext := hinv.step hdigests he.2 heffect
  exact ⟨hnext, hnext.singleDelivery, OtpReceiver.persistedFirst_of_effect hinv hnext heffect,
    OtpReceiver.staysTerminal_of_effect heffect⟩

/-! ## A code, a restart, and the same message again -/

/-- `sha256` on the message of the run. -/
def otpHost : Host :=
  { asciiHost with
    sha256 := fun text =>
      if text = "message1" then "97d035e32036a670058f2be4e008a7c56355489750a5da6f2af342db4a968e99"
      else String.ofList (List.replicate 64 '0') }

/-- The example's hash has 64 digits. -/
theorem digests_otpHost : Digests otpHost := by
  intro text
  change (if text = "message1" then
    "97d035e32036a670058f2be4e008a7c56355489750a5da6f2af342db4a968e99"
    else String.ofList (List.replicate 64 '0')).utf8ByteSize = 64
  split_ifs
  · decide +kernel
  · decide +kernel

/-- A receiver for Clal only. -/
def otpConfig : OtpConfig where
  clalSenders := ["ExactClalSender"]
  clalCode _ := ""
  bestInvest := none
  verifies := true

/-- One second after the zero time. -/
def codeMessage : OtpMessage := ⟨.clal, "message1", "ExactClalSender", "123456", 2 * goSecond⟩

/-- A lease is armed and the message arrives. -/
def armAndReceive (id : String) : List OtpEvent :=
  [.setHealth true .ready, .armCheck 0 .clal, .armReady 0 true, .armCommit 0 (some id),
    .tick 500000000, .accept codeMessage, .wait .clal id .written]

/-- The code is delivered, and the message comes again after a restart. -/
def redelivery : List OtpEvent :=
  [.start otpConfig] ++ armAndReceive "lease1" ++ [.stop, .start otpConfig] ++
    armAndReceive "lease2"

example : (Runs.run (otpStep otpHost) (freshOtpWorld goSecond) redelivery).deliveries.map
    (fun d => (d.lease.id, d.lease.code)) = [("lease1", "123456")] := by decide +kernel

/-- A message that comes twice is delivered once. -/
theorem otp_single_delivery_redelivery :
    Runs.Along (otpStep otpHost)
      (fun w _ w' => SingleDelivery w'.toOtpReceiver ∧
        PersistedFirst otpHost w.toOtpReceiver w'.toOtpReceiver ∧
        StaysTerminal w.toOtpReceiver w'.toOtpReceiver)
      (freshOtpWorld goSecond) redelivery := by
  refine otp_single_delivery otpHost digests_otpHost (fun _ => 2 * goSecond) goSecond (by decide)
    redelivery ?_ ?_
  · simp [redelivery, armAndReceive, OtpEvent.Reported, ReceiverHealth.isFailure]
  · simp [redelivery, armAndReceive, OtpEvent.Stamped, codeMessage]

end SimplefinBridge
