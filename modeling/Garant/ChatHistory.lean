import Garant.Chat
import Garant.Lib.Keyset
import Garant.Lib.Runs
/-!
# Loading the history of a chat

A client of `list_messages` asks for the newest messages of a deal, and then, page
by page, for the ones before the oldest it has, while messages are posted, files
uploaded and deals deleted. `chat_history_exact`: what it has rises strictly by id,
and is the whole history once a page is short.
-/

namespace Garant

/-- The chats, and the messages a client has loaded, oldest first. -/
structure History where
  chat : Chat
  loaded : List DealMessageOut
  short : Bool

inductive HistoryEvent
  | chat (e : ChatEvent)
  | page (limit : ℕ)

section
variable (cfg : MediaSettings) (sign : List String → String → List String) (user : ChatUser) (deal_id : ℕ)

/-- A request of anyone, or one page for the client. -/
inductive HistoryStep : HistoryEvent → History → History → Prop
  | chat {s : History} {e : ChatEvent} {c : Chat} (h : ChatStep cfg e s.chat c) :
      HistoryStep (.chat e) s { s with chat := c }
  | page {s : History} {limit : ℕ} {page : List DealMessageOut}
      (h : listMessages sign s.chat deal_id user limit (s.loaded.head?.map (·.id)) = .ok page) :
      HistoryStep (.page limit) s { s with loaded := page ++ s.loaded, short := page.length < limit }

/-- The messages of the deal that have been in place since `t`. -/
def StillSent (t t' : Table DealMessage) (i : ℕ) : Prop :=
  ∃ m, t.row i = some m ∧ m.deal_id = deal_id ∧ (t'.row i).isSome

/-- What the loaded messages are worth, in every state reached; a scan has seen them newest first. -/
structure History.Inv (c : Chat) (s : History) : Prop where
  kept : c.messages.Evolves Eq s.chat.messages
  exact : (⟨(s.loaded.map (·.id)).reverse, s.short⟩ : Keyset.Scan ℕ).Exact (StillSent deal_id c.messages s.chat.messages)
  known : ∀ r ∈ s.loaded, r.id < s.chat.messages.next
  served : ∀ r ∈ s.loaded, ∀ m, s.chat.messages.row r.id = some m →
    m.deal_id = deal_id ∧ r.sender_id = m.sender_id ∧ r.text = m.text ∧ r.created_at = m.created_at
end

section
variable {cfg : MediaSettings} {sign : List String → String → List String} {user : ChatUser} {c c' : Chat} {e : ChatEvent}
  {deal_id i limit : ℕ} {before_id : Option ℕ} {s s' : History} {rows : List DealMessageOut} {r : DealMessageOut}
  {t t' t'' : Table DealMessage}

/-- A page, by its ids. -/
theorem page_ids : (c.page deal_id limit before_id).reverse =
    Keyset.page (c.messages.ids fun m => m.deal_id = deal_id) before_id limit := by
  rw [Chat.page, List.reverse_reverse, Keyset.page]
  congr 1
  have hasc : (c.messages.ids fun m => decide (m.deal_id = deal_id)).Pairwise (· ≤ ·) :=
    List.pairwise_le_range.filter _
  refine List.Perm.eq_of_pairwise' (r := (· ≥ ·)) (List.pairwise_reverse.2 (hasc.filter _))
    (List.pairwise_insertionSort _ _) ?_
  exact (List.reverse_perm _).trans (List.perm_insertionSort _ _).symm

theorem listMessages_ok (h : listMessages sign c deal_id user limit before_id = .ok rows) :
    rows = (c.page deal_id limit before_id).filterMap fun i => (c.messages.row i).map (serializeOne sign c i) := by
  simp only [listMessages, bind_ok, pure_ok] at h
  obtain ⟨-, -, h⟩ := h
  exact h.symm

theorem listMessages_ids (h : listMessages sign c deal_id user limit before_id = .ok rows) :
    rows.map (·.id) = c.page deal_id limit before_id := by
  rw [listMessages_ok h, List.map_filterMap]
  refine (List.filterMap_congr fun i hi => ?_).trans List.filterMap_some
  obtain ⟨m, hm, -⟩ := row_of_page hi
  rw [hm]
  rfl

/-- A page holds messages of the deal as they are. -/
theorem mem_listMessages (h : listMessages sign c deal_id user limit before_id = .ok rows) (hr : r ∈ rows) :
    ∃ m, c.messages.row r.id = some m ∧ m.deal_id = deal_id ∧ r = serializeOne sign c r.id m := by
  rw [listMessages_ok h, List.mem_filterMap] at hr
  obtain ⟨i, hi, hr⟩ := hr
  obtain ⟨m, hm, hdeal⟩ := row_of_page hi
  rw [hm] at hr
  cases hr
  exact ⟨m, hm, hdeal, rfl⟩

/-- Messages are never edited. -/
theorem ChatStep.messages (h : ChatStep cfg e c c') : c.messages.Evolves Eq c'.messages := by
  cases h with
  | upload h =>
    obtain ⟨ext, size, -, rfl⟩ := uploadMedia_ok h
    exact .refl (fun _ => rfl) _
  | post h =>
    obtain ⟨d, m, -, -, rfl⟩ := createMessage_ok h
    exact Table.evolves_insert fun _ => rfl
  | delete h =>
    simp only [deleteDealChat, bind_ok, pure_ok] at h
    obtain ⟨db, -, rfl⟩ := h
    exact Table.evolves_eraseAll (fun _ => rfl) _
  | other => exact .refl (fun _ => rfl) _

theorem StillSent.mono (hk : t.Evolves Eq t') (hk' : t'.Evolves Eq t'') (h : StillSent deal_id t t'' i) :
    StillSent deal_id t t' i := by
  obtain ⟨m, hm, hdeal, hstill⟩ := h
  obtain ⟨m'', hm''⟩ := Option.isSome_iff_exists.1 hstill
  obtain ⟨m', hm', -⟩ := hk'.row i m'' ((Table.lt_next hm).trans_le hk.next) hm''
  exact ⟨m, hm, hdeal, by rw [hm']; rfl⟩

theorem StillSent.mem (hk : t.Evolves Eq t') (h : StillSent deal_id t t' i) : i ∈ t'.ids fun m => m.deal_id = deal_id := by
  obtain ⟨m, hm, hdeal, hstill⟩ := h
  obtain ⟨m', hm'⟩ := Option.isSome_iff_exists.1 hstill
  obtain ⟨_, hm'', rfl⟩ := hk.row i m' (Table.lt_next hm) hm'
  rw [hm] at hm''
  cases hm''
  exact Table.mem_ids.2 ⟨m, hm', decide_eq_true hdeal⟩

/-- A request of anyone else: the messages that stay are what they were. -/
theorem History.Inv.chat (h : s.Inv deal_id c) (hk : s.chat.messages.Evolves Eq c'.messages) :
    History.Inv deal_id c { s with chat := c' } where
  kept := h.kept.trans (fun _ _ _ => Eq.trans) hk
  exact := h.exact.mono fun i hstill => hstill.mono h.kept hk
  known r hr := (h.known r hr).trans_le hk.next
  served r hr m hm := by
    obtain ⟨m', hm', heq⟩ := hk.row r.id m (h.known r hr) hm
    exact heq ▸ h.served r hr m' hm'

theorem History.Inv.page (h : s.Inv deal_id c)
    (hpage : listMessages sign s.chat deal_id user limit (s.loaded.head?.map (·.id)) = .ok rows) :
    History.Inv deal_id c { s with loaded := rows ++ s.loaded, short := rows.length < limit } where
  kept := h.kept
  exact := by
    have hlast : (s.loaded.map (·.id)).reverse.getLast? = s.loaded.head?.map (·.id) := by
      rw [List.getLast?_reverse, List.head?_map]
    have hrows : (rows.map (·.id)).reverse = Keyset.page (s.chat.messages.ids fun m => m.deal_id = deal_id)
        (s.loaded.map (·.id)).reverse.getLast? limit := by
      rw [hlast, listMessages_ids hpage, page_ids]
    have hscan : (⟨((rows ++ s.loaded).map (·.id)).reverse, rows.length < limit⟩ : Keyset.Scan ℕ) =
        Keyset.Scan.next (s.chat.messages.ids fun m => m.deal_id = deal_id) limit
          ⟨(s.loaded.map (·.id)).reverse, s.short⟩ := by
      rw [Keyset.Scan.next, ← hrows, List.map_append, List.reverse_append, List.length_reverse, List.length_map]
    rw [hscan]
    exact h.exact.next (Table.nodup_ids _) fun i hi => hi.mem h.kept
  known r hr := by
    rcases List.mem_append.1 hr with hr | hr
    · obtain ⟨m, hm, -⟩ := mem_listMessages hpage hr
      exact Table.lt_next hm
    · exact h.known r hr
  served r hr m hm := by
    rcases List.mem_append.1 hr with hr | hr
    · obtain ⟨m', hm', hdeal, hout⟩ := mem_listMessages hpage hr
      rw [hm'] at hm
      cases hm
      rw [hout]
      exact ⟨hdeal, rfl, rfl, rfl⟩
    · exact h.served r hr m hm

theorem history_inv (h : Reach (HistoryStep cfg sign user deal_id) Free ⟨c, [], false⟩ s) : s.Inv deal_id c := by
  have hstart : History.Inv deal_id c ⟨c, [], false⟩ :=
    ⟨.refl (fun _ => rfl) _, Keyset.Scan.exact_start, fun r hr => (by cases hr), fun r hr => (by cases hr)⟩
  refine h.invariant hstart fun e s s' hinv _ hstep => ?_
  cases hstep with
  | chat hchat => exact hinv.chat hchat.messages
  | page hpage => exact hinv.page hpage

/-- Whatever is posted, uploaded and deleted meanwhile, the loaded messages rise
strictly by id, those still in place are messages of the deal as they were sent, and
once a page is short, every message of the deal that was there at the start and
still is has been loaded. -/
theorem chat_history_exact (h : Reach (HistoryStep cfg sign user deal_id) Free ⟨c, [], false⟩ s) :
    (s.loaded.map (·.id)).Pairwise (· < ·) ∧
    (∀ r ∈ s.loaded, ∀ m, s.chat.messages.row r.id = some m →
      m.deal_id = deal_id ∧ r.sender_id = m.sender_id ∧ r.text = m.text ∧ r.created_at = m.created_at) ∧
    (s.short = true → ∀ i m, c.messages.row i = some m → m.deal_id = deal_id → (s.chat.messages.row i).isSome →
      i ∈ s.loaded.map (·.id)) := by
  have hinv := history_inv h
  refine ⟨?_, hinv.served, fun hshort i m hm hdeal hstill => ?_⟩
  · exact List.pairwise_reverse.1 hinv.exact.desc
  · exact List.mem_reverse.1 (hinv.exact.complete hshort i ⟨m, hm, hdeal, hstill⟩)

end

/-! ## A history of one message, and one posted meanwhile -/

def sampleReposted : Chat := { samplePosted with messages := samplePosted.messages.insert (sampleMessage 1) }

def sampleUnsigned (url : List String) (_ : String) : List String := url

theorem sampleHistory_exact : ∃ s, Reach (HistoryStep sampleMediaSettings sampleUnsigned sampleBuyer 1) Free
      ⟨samplePosted, [], false⟩ s ∧ s.loaded.map (·.id) = [1] ∧ s.short = true ∧
    (∀ i m, samplePosted.messages.row i = some m → m.deal_id = 1 → (s.chat.messages.row i).isSome →
      i ∈ s.loaded.map (·.id)) := by
  have hpost : createMessage samplePosted sampleBuyer 1 "" [1] 0 = .ok sampleReposted := rfl
  have hfirst : listMessages sampleUnsigned samplePosted 1 sampleBuyer 1 none =
      .ok [serializeOne sampleUnsigned samplePosted 1 (sampleMessage 1)] := rfl
  have hsecond : listMessages sampleUnsigned sampleReposted 1 sampleBuyer 1 (some 1) = .ok [] := rfl
  have hrun : Reach (HistoryStep sampleMediaSettings sampleUnsigned sampleBuyer 1) Free ⟨samplePosted, [], false⟩
      ⟨sampleReposted, [] ++ ([serializeOne sampleUnsigned samplePosted 1 (sampleMessage 1)] ++ []),
        decide (([] : List DealMessageOut).length < 1)⟩ :=
    .step (.step (.step .refl trivial (.page hfirst)) trivial (.chat (.post hpost))) trivial (.page hsecond)
  exact ⟨_, hrun, rfl, rfl, (chat_history_exact hrun).2.2 rfl⟩

end Garant
