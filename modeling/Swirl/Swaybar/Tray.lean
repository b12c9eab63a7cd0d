import Swirl.Common.Stringop
import Swirl.Lib.Mirror
import Swirl.Lib.Runs

set_option autoImplicit false

/-! # The tray of the bar

A watcher on the session bus (`tray/watcher.c`) keeps the names of the status icons and of the
hosts that show them. The tray of a bar is a host (`tray/host.c`): it asks the watcher for the
icons, follows its signals, and asks again when a new watcher appears. There are two protocols,
each with a watcher of its own, and one list of icons for both. The bus delivers what the watchers
send to the bar in the order it was sent, and so what the bar sends to them. A watcher can belong
to this bar or to another process; what becomes of it is an event like any other.
-/

namespace Swirl

open Lib

/-- The protocols a tray speaks: that of the standard, and that of KDE. -/
inductive TrayProtocol where
  | freedesktop | kde
  deriving DecidableEq, Repr

/-- `struct swaybar_watcher` -/
structure TrayWatcher where
  items : List String
  hosts : List String
  deriving DecidableEq, Repr

/-- `struct swaybar_sni`, as far as it says where the icon is found. -/
structure Sni where
  watcherId : String
  service : String
  path : String
  interface : String
  deriving DecidableEq, Repr

/-- What reaches the bar: the signals of a watcher, its answer to a `Get` (or that there is none),
and that a watcher has taken its name. -/
inductive TrayMessage where
  | itemRegistered (p : TrayProtocol) (id : String)
  | itemUnregistered (p : TrayProtocol) (id : String)
  | registeredItems (p : TrayProtocol) (ids : List String)
  | methodError (p : TrayProtocol)
  | newWatcher (p : TrayProtocol)

/-- What the bar calls. -/
inductive HostCall where
  | registerHost (p : TrayProtocol) (service : String)
  | getItems (p : TrayProtocol)
  deriving DecidableEq

/-- The bus: the watchers that are there, what the bar has called and what is on its way to the
bar, and the icons of the bar with the names of its hosts. -/
structure TrayBus where
  watcher : TrayProtocol → Option TrayWatcher
  calls : List HostCall
  messages : List TrayMessage
  items : List Sni
  service : TrayProtocol → String

/-! ## The watcher -/

/-- The name under which `register_sni` keeps an icon. -/
def TrayProtocol.itemId (p : TrayProtocol) (sender serviceOrPath : String) : String :=
  match p with
  | .freedesktop => serviceOrPath
  | .kde =>
      if serviceOrPath.toList.head? = some '/' then sender ++ serviceOrPath
      else serviceOrPath ++ "/StatusNotifierItem"

/-- `register_sni`: the watcher, and the signal it emits. -/
def registerSni (p : TrayProtocol) (w : TrayWatcher) (sender serviceOrPath : String) :
    TrayWatcher × List TrayMessage :=
  let id := p.itemId sender serviceOrPath
  if id ∈ w.items then (w, [])
  else ({ w with items := w.items ++ [id] }, [.itemRegistered p id])

/-- `register_host` -/
def registerHost (w : TrayWatcher) (service : String) : TrayWatcher :=
  if service ∈ w.hosts then w else { w with hosts := w.hosts ++ [service] }

/-- Whether `handle_lost_service` takes an icon for one of a service that is gone. -/
def TrayProtocol.isItemOf (p : TrayProtocol) (id service : String) : Bool :=
  match p with
  | .freedesktop => decide (id = service)
  | .kde => hasPrefix id service

/-- The loop of `handle_lost_service` over the icons: those that stay, and those that are
unregistered. By the standard protocol it ends with the first one. -/
def lostItems (p : TrayProtocol) (service : String) : List String → List String × List String
  | [] => ([], [])
  | id :: ids =>
      if p.isItemOf id service then
        if p = .freedesktop then (ids, [id])
        else ((lostItems p service ids).1, id :: (lostItems p service ids).2)
      else (id :: (lostItems p service ids).1, (lostItems p service ids).2)

/-- `handle_lost_service`, for a service without a new owner. -/
def handleLostService (p : TrayProtocol) (w : TrayWatcher) (service : String) :
    TrayWatcher × List TrayMessage :=
  let lost := lostItems p service w.items
  ({ items := lost.1, hosts := w.hosts.erase service }, lost.2.map (.itemUnregistered p))

/-! ## The host -/

/-- `create_sni` -/
def createSni (id : String) : Sni :=
  let service := id.toList.takeWhile (· != '/')
  let path := id.toList.dropWhile (· != '/')
  if path = [] then ⟨id, id, "/StatusNotifierItem", "org.freedesktop.StatusNotifierItem"⟩
  else ⟨id, String.ofList service, String.ofList path, "org.kde.StatusNotifierItem"⟩

/-- `add_sni` -/
def addSni (items : List Sni) (id : String) : List Sni :=
  if items.any fun sni => decide (sni.watcherId = id) then items else items ++ [createSni id]

/-- The calls of `register_to_watcher`. -/
def registerToWatcher (p : TrayProtocol) (service : String) : List HostCall :=
  [.registerHost p service, .getItems p]

/-- The bar handles a message: `handle_sni_registered`, `handle_sni_unregistered`,
`get_registered_snis_callback` and `handle_new_watcher`. -/
def TrayBus.handle (s : TrayBus) : TrayMessage → TrayBus
  | .itemRegistered _ id => { s with items := addSni s.items id }
  | .itemUnregistered _ id =>
      { s with items := s.items.eraseP fun sni => decide (sni.watcherId = id) }
  | .registeredItems _ ids => { s with items := ids.foldl addSni s.items }
  | .methodError _ => s
  | .newWatcher p => { s with calls := s.calls ++ registerToWatcher p (s.service p) }

/-! ## The bus -/

/-- A watcher that is there does something, and what it sends is queued. -/
def TrayBus.watcherDoes (s : TrayBus) (p : TrayProtocol)
    (f : TrayWatcher → TrayWatcher × List TrayMessage) : TrayBus :=
  match s.watcher p with
  | none => s
  | some w =>
      { s with
        watcher := Function.update s.watcher p (some (f w).1)
        messages := s.messages ++ (f w).2 }

/-- A call of the bar reaches the bus. -/
def TrayBus.answer (s : TrayBus) : HostCall → TrayBus
  | .registerHost p service => s.watcherDoes p fun w => (registerHost w service, [])
  | .getItems p =>
      match s.watcher p with
      | none => { s with messages := s.messages ++ [.methodError p] }
      | some w => { s with messages := s.messages ++ [.registeredItems p w.items] }

/-- What can happen: a program registers an icon, another host registers, a watcher sees that a
name is no longer owned, a watcher goes or comes, or the next call or the next message of the bar is
handled. -/
inductive TrayEvent where
  | registerItem (p : TrayProtocol) (sender serviceOrPath : String)
  | registerHost (p : TrayProtocol) (service : String)
  | nameLost (p : TrayProtocol) (service : String)
  | watcherLost (p : TrayProtocol)
  | watcherStarted (p : TrayProtocol)
  | call
  | message

def TrayBus.step (s : TrayBus) : TrayEvent → TrayBus
  | .registerItem p sender arg => s.watcherDoes p fun w => registerSni p w sender arg
  | .registerHost p service => s.watcherDoes p fun w => (Swirl.registerHost w service, [])
  | .nameLost p service => s.watcherDoes p fun w => handleLostService p w service
  | .watcherLost p => { s with watcher := Function.update s.watcher p none }
  | .watcherStarted p =>
      match s.watcher p with
      | some _ => s
      | none =>
          { s with
            watcher := Function.update s.watcher p (some ⟨[], []⟩)
            messages := s.messages ++ [.newWatcher p] }
  | .call =>
      match s.calls with
      | [] => s
      | c :: calls => { s with calls := calls }.answer c
  | .message =>
      match s.messages with
      | [] => s
      | m :: messages => { s with messages := messages }.handle m

/-- The bus when the tray of a bar has been created: `init_host` has run for both protocols. -/
def TrayBus.start (watcher : TrayProtocol → Option TrayWatcher) (service : TrayProtocol → String) :
    TrayBus where
  watcher := watcher
  calls := registerToWatcher .freedesktop (service .freedesktop) ++
    registerToWatcher .kde (service .kde)
  messages := []
  items := []
  service := service

/-! ## The names -/

/-- The names of the icons of the bar. -/
def TrayBus.ids (s : TrayBus) : List String := s.items.map Sni.watcherId

/-- What a message makes of the names. -/
def TrayMessage.update : TrayMessage → Option (Update String)
  | .itemRegistered _ id => some (.added id)
  | .itemUnregistered _ id => some (.removed id)
  | .registeredItems _ ids => some (.listed ids)
  | .methodError _ | .newWatcher _ => none

/-- What is on its way to the bar, as updates of its names. -/
def TrayBus.queue (s : TrayBus) : List (Update String) := s.messages.filterMap TrayMessage.update

/-- Whether a name is one of a protocol: those of KDE have a path. -/
def TrayProtocol.Names (p : TrayProtocol) (id : String) : Prop :=
  match p with
  | .freedesktop => '/' ∉ id.toList
  | .kde => '/' ∈ id.toList

/-- By the standard protocol programs register the names of services, which have no slash. -/
def TrayEvent.Named : TrayEvent → Prop
  | .registerItem .freedesktop _ serviceOrPath => '/' ∉ serviceOrPath.toList
  | _ => True

/-- Every watcher has different icons, with names of its protocol. -/
def TrayBus.Watched (s : TrayBus) : Prop :=
  ∀ p w, s.watcher p = some w → w.items.Nodup ∧ ∀ id ∈ w.items, p.Names id

theorem watcherId_createSni (id : String) : (createSni id).watcherId = id := by
  unfold createSni
  dsimp only
  split <;> rfl

/-- A KDE icon is found at the service and the path it was registered for. -/
theorem createSni_kde {service path : String} (hservice : '/' ∉ service.toList)
    (hpath : path.toList.head? = some '/') :
    createSni (service ++ path) =
      ⟨service ++ path, service, path, "org.kde.StatusNotifierItem"⟩ := by
  obtain ⟨rest, hrest⟩ : ∃ rest, path.toList = '/' :: rest := by
    cases h : path.toList with
    | nil => simp [h] at hpath
    | cons c rest =>
        obtain rfl : c = '/' := by simpa [h] using hpath
        exact ⟨rest, rfl⟩
  have hplain : ∀ c ∈ service.toList, (c != '/') = true := by
    intro c hc
    simp only [bne_iff_ne, ne_eq]
    rintro rfl
    exact hservice hc
  have htake : (service ++ path).toList.takeWhile (· != '/') = service.toList := by
    rw [String.toList_append, List.takeWhile_append_of_pos hplain, hrest]
    simp
  have hdrop : (service ++ path).toList.dropWhile (· != '/') = path.toList := by
    rw [String.toList_append, List.dropWhile_append_of_pos hplain, hrest]
    simp
  unfold createSni
  dsimp only
  rw [htake, hdrop, if_neg (by rw [hrest]; exact List.cons_ne_nil _ _)]
  simp

theorem map_addSni (items : List Sni) (id : String) :
    (addSni items id).map Sni.watcherId = insertNew (items.map Sni.watcherId) id := by
  have hmem : (items.any fun sni => decide (sni.watcherId = id)) = true ↔
      id ∈ items.map Sni.watcherId := by simp
  unfold addSni insertNew
  by_cases h : id ∈ items.map Sni.watcherId
  · rw [if_pos (hmem.2 h), if_pos h]
  · rw [if_neg (fun h' => h (hmem.1 h')), if_neg h, List.map_append, List.map_singleton,
      watcherId_createSni]

theorem map_foldl_addSni (ids : List String) (items : List Sni) :
    (ids.foldl addSni items).map Sni.watcherId =
      ids.foldl insertNew (items.map Sni.watcherId) := by
  induction ids generalizing items with
  | nil => rfl
  | cons id ids ih => rw [List.foldl_cons, ih, map_addSni, List.foldl_cons]

theorem map_eraseP_watcherId (items : List Sni) (id : String) :
    (items.eraseP fun sni => decide (sni.watcherId = id)).map Sni.watcherId =
      (items.map Sni.watcherId).erase id := by
  rw [List.erase_eq_eraseP', List.eraseP_map]
  congr 2

/-- A message does to the names what it says. -/
theorem queue_handle (s : TrayBus) (m : TrayMessage) (messages : List TrayMessage) :
    ({ s with messages := messages }.handle m).queue = messages.filterMap TrayMessage.update := by
  cases m <;> rfl

theorem ids_handle (s : TrayBus) (m : TrayMessage) :
    (s.handle m).ids = m.update.elim s.ids (·.apply s.ids) := by
  cases m with
  | itemRegistered p id => exact map_addSni s.items id
  | itemUnregistered p id => exact map_eraseP_watcherId s.items id
  | registeredItems p ids => exact map_foldl_addSni ids s.items
  | methodError p => rfl
  | newWatcher p => rfl

/-- The names as they will be do not change when a message is handled. -/
theorem settled_message {s : TrayBus} {m : TrayMessage} {messages : List TrayMessage}
    (h : s.messages = m :: messages) :
    settled ({ s with messages := messages }.handle m).ids
        (messages.filterMap TrayMessage.update) = settled s.ids s.queue := by
  rw [ids_handle, TrayBus.queue, h]
  cases hu : m.update with
  | none => rw [List.filterMap_cons_none hu]; rfl
  | some u => rw [List.filterMap_cons_some hu]; rfl

/-! ## What the watchers keep -/

section Watcher

variable {p : TrayProtocol} {w : TrayWatcher} {service : String}

theorem itemId_names {sender arg : String} (h : (TrayEvent.registerItem p sender arg).Named) :
    p.Names (p.itemId sender arg) := by
  cases p with
  | freedesktop => exact h
  | kde =>
      show '/' ∈ (TrayProtocol.kde.itemId sender arg).toList
      unfold TrayProtocol.itemId
      dsimp only
      split
      · rename_i hhead
        rw [String.toList_append]
        exact List.mem_append_right _ (List.mem_of_mem_head? hhead)
      · rw [String.toList_append]
        exact List.mem_append_right _ (by decide)

theorem lostItems_perm (p : TrayProtocol) (service : String) (ids : List String) :
    ((lostItems p service ids).2 ++ (lostItems p service ids).1).Perm ids := by
  induction ids with
  | nil => exact List.Perm.refl _
  | cons id ids ih =>
      unfold lostItems
      split
      · split
        · exact List.Perm.refl _
        · exact ih.cons id
      · exact List.perm_middle.trans (ih.cons id)

/-- The icons that stay are those that were there and are not unregistered. -/
theorem mem_lostItems (h : w.items.Nodup) (id : String) :
    id ∈ (lostItems p service w.items).1 ↔
      id ∈ w.items ∧ id ∉ (lostItems p service w.items).2 := by
  have hperm := lostItems_perm p service w.items
  have hdisj := (List.nodup_append.1 (hperm.nodup_iff.2 h)).2.2
  constructor
  · intro hid
    exact ⟨hperm.subset (List.mem_append_right _ hid), fun hgone => hdisj id hgone id hid rfl⟩
  · rintro ⟨hid, hgone⟩
    rcases List.mem_append.1 (hperm.symm.subset hid) with hid | hid
    · exact absurd hid hgone
    · exact hid

theorem nodup_lostItems (h : w.items.Nodup) : (lostItems p service w.items).1.Nodup :=
  (List.nodup_append.1 ((lostItems_perm p service w.items).nodup_iff.2 h)).2.1

/-- What a watcher does is told by what it sends, and keeps its icons different and well named. -/
structure Tells (p : TrayProtocol) (w : TrayWatcher) (r : TrayWatcher × List TrayMessage) :
    Prop where
  told : Told w.items (r.2.filterMap TrayMessage.update) r.1.items
  mentions : ∀ u ∈ r.2.filterMap TrayMessage.update, ∀ id ∈ u.mentions, p.Names id
  nodup : r.1.items.Nodup
  names : ∀ id ∈ r.1.items, p.Names id

variable (hw : w.items.Nodup) (hn : ∀ id ∈ w.items, p.Names id)
include hw hn

theorem registerHost_tells (service : String) : Tells p w (registerHost w service, []) := by
  have hitems : (registerHost w service).items = w.items := by
    unfold registerHost
    split <;> rfl
  constructor
  · rw [hitems]
    exact Told.nothing _
  · simp
  · rw [hitems]
    exact hw
  · rw [hitems]
    exact hn

theorem registerSni_tells {sender arg : String} (h : (TrayEvent.registerItem p sender arg).Named) :
    Tells p w (registerSni p w sender arg) := by
  have hid := itemId_names h
  unfold registerSni
  dsimp only
  split
  · exact ⟨Told.nothing _, by simp, hw, hn⟩
  · rename_i hnew
    constructor
    · exact Told.added _ _
    · simp [TrayMessage.update, Update.mentions, hid]
    · have hins := nodup_insertNew hw (p.itemId sender arg)
      rwa [insertNew, if_neg hnew] at hins
    · intro id hmem
      rcases List.mem_append.1 hmem with hmem | hmem
      · exact hn id hmem
      · rw [List.mem_singleton.1 hmem]
        exact hid

theorem handleLostService_tells (service : String) : Tells p w (handleLostService p w service) := by
  have hupdates : (handleLostService p w service).2.filterMap TrayMessage.update =
      (lostItems p service w.items).2.map .removed := by
    show ((lostItems p service w.items).2.map _).filterMap _ = _
    rw [List.filterMap_map, ← List.filterMap_eq_map]
    rfl
  have hperm := lostItems_perm p service w.items
  constructor
  · rw [hupdates]
    exact Told.removed (mem_lostItems hw)
  · rw [hupdates]
    intro u hu id hid
    exact hn id (hperm.subset (List.mem_append_left _ (mentions_removals hu hid)))
  · exact nodup_lostItems hw
  · intro id hid
    exact hn id ((mem_lostItems hw id).1 hid).1

end Watcher

theorem TrayProtocol.not_names_of_ne {p q : TrayProtocol} (h : p ≠ q) {id : String}
    (hq : q.Names id) : ¬ p.Names id := by
  cases p <;> cases q
  · exact absurd rfl h
  · exact fun hp => hp hq
  · exact fun hp => hq hp
  · exact absurd rfl h

/-! ## Runs -/

/-- The icons of a watcher, none when there is no watcher. -/
def TrayBus.itemsOf (s : TrayBus) (p : TrayProtocol) : List String :=
  match s.watcher p with
  | some w => w.items
  | none => []

/-- The bar will have all icons of the watchers, or has a question for them on its way. -/
structure TrayInv (s : TrayBus) : Prop where
  nodup : s.ids.Nodup
  watched : s.Watched
  covers : ∀ p, Covers (s.itemsOf p) s.ids s.queue ∨ .getItems p ∈ s.calls

/-- The bar will have no other icons of a protocol than its watcher. -/
def TrayBus.Exact (p : TrayProtocol) (s : TrayBus) : Prop :=
  Within p.Names (s.itemsOf p) s.ids s.queue

section Steps

variable {s : TrayBus} {p q : TrayProtocol} {w : TrayWatcher}

theorem itemsOf_handle (s : TrayBus) (m : TrayMessage) (p : TrayProtocol) :
    (s.handle m).itemsOf p = s.itemsOf p := by
  cases m <;> rfl

theorem itemsOf_some (h : s.watcher p = some w) : s.itemsOf p = w.items := by
  rw [TrayBus.itemsOf, h]

theorem TrayBus.Watched.items (h : s.Watched) (p : TrayProtocol) :
    (s.itemsOf p).Nodup ∧ ∀ id ∈ s.itemsOf p, p.Names id := by
  unfold itemsOf
  cases hw : s.watcher p with
  | none => exact ⟨List.nodup_nil, by simp⟩
  | some w => exact h p w hw

/-- What a watcher that is there changes. -/
theorem watcherDoes_eq (f : TrayWatcher → TrayWatcher × List TrayMessage)
    (h : s.watcher q = some w) :
    (s.watcherDoes q f).itemsOf q = (f w).1.items ∧
      (∀ p, p ≠ q → (s.watcherDoes q f).itemsOf p = s.itemsOf p) ∧
      (s.watcherDoes q f).queue = s.queue ++ (f w).2.filterMap TrayMessage.update ∧
      (s.watcherDoes q f).ids = s.ids ∧ (s.watcherDoes q f).calls = s.calls := by
  unfold TrayBus.watcherDoes
  rw [h]
  refine ⟨?_, fun p hp => ?_, ?_, rfl, rfl⟩
  · simp [TrayBus.itemsOf]
  · simp [TrayBus.itemsOf, Function.update_of_ne hp]
  · simp [TrayBus.queue]

theorem watcherDoes_none (f : TrayWatcher → TrayWatcher × List TrayMessage)
    (h : s.watcher q = none) : s.watcherDoes q f = s := by
  rw [TrayBus.watcherDoes, h]

/-- **A watcher** tells the bar what it does, and the icons of the other protocol are not
concerned. -/
theorem TrayInv.watcherDoes (h : TrayInv s) (f : TrayWatcher → TrayWatcher × List TrayMessage)
    (hf : ∀ w, s.watcher q = some w → Tells q w (f w)) : TrayInv (s.watcherDoes q f) := by
  cases hw : s.watcher q with
  | none => rwa [watcherDoes_none f hw]
  | some w =>
      obtain ⟨hself, hother, hqueue, hids, hcalls⟩ := watcherDoes_eq f hw
      have htells := hf w hw
      constructor
      · rw [hids]
        exact h.nodup
      · intro p v hv
        by_cases hp : p = q
        · subst hp
          obtain rfl : v = (f w).1 := by
            unfold TrayBus.watcherDoes at hv
            rw [hw] at hv
            simpa using hv.symm
          exact ⟨htells.nodup, htells.names⟩
        · apply h.watched p v
          unfold TrayBus.watcherDoes at hv
          rw [hw] at hv
          simpa [Function.update_of_ne hp] using hv
      · intro p
        rw [hids, hqueue, hcalls]
        refine (h.covers p).imp_left fun hcov => ?_
        by_cases hp : p = q
        · subst hp
          rw [hself]
          rw [itemsOf_some hw] at hcov
          exact hcov.told h.nodup htells.told
        · rw [hother p hp]
          refine hcov.foreign h.nodup fun id hid u hu hmention => ?_
          exact TrayProtocol.not_names_of_ne hp (htells.mentions u hu id hmention)
            ((h.watched.items p).2 id hid)

theorem TrayBus.Exact.watcherDoes (he : s.Exact p) (h : TrayInv s)
    (f : TrayWatcher → TrayWatcher × List TrayMessage)
    (hf : ∀ w, s.watcher q = some w → Tells q w (f w)) : (s.watcherDoes q f).Exact p := by
  cases hw : s.watcher q with
  | none => rwa [watcherDoes_none f hw]
  | some w =>
      obtain ⟨hself, hother, hqueue, hids, -⟩ := watcherDoes_eq f hw
      have htells := hf w hw
      unfold TrayBus.Exact
      rw [hids, hqueue]
      by_cases hp : p = q
      · subst hp
        rw [hself]
        have he' : Within p.Names w.items s.ids s.queue := itemsOf_some hw ▸ he
        exact he'.told h.nodup htells.told
      · rw [hother p hp]
        refine Within.foreign h.nodup he fun id hid u hu hmention => ?_
        exact TrayProtocol.not_names_of_ne hp (htells.mentions u hu id hmention) hid

end Steps

/-- What the watcher does at an event is told by what it sends. -/
theorem TrayBus.Watched.tells {s : TrayBus} (h : s.Watched) (p : TrayProtocol) :
    (∀ sender arg, (TrayEvent.registerItem p sender arg).Named → ∀ w, s.watcher p = some w →
      Tells p w (registerSni p w sender arg)) ∧
    (∀ service w, s.watcher p = some w → Tells p w (registerHost w service, [])) ∧
    ∀ service w, s.watcher p = some w → Tells p w (handleLostService p w service) := by
  refine ⟨fun sender arg he w hw => ?_, fun service w hw => ?_, fun service w hw => ?_⟩
  · exact registerSni_tells (h p w hw).1 (h p w hw).2 he
  · exact registerHost_tells (h p w hw).1 (h p w hw).2 service
  · exact handleLostService_tells (h p w hw).1 (h p w hw).2 service

theorem queue_eq_of_update_none {s : TrayBus} {m : TrayMessage} (h : m.update = none) :
    ({ s with messages := s.messages ++ [m] } : TrayBus).queue = s.queue := by
  simp [TrayBus.queue, h]

/-- The answer of a bus without a watcher, and that of a watcher. -/
theorem answer_getItems_none {s : TrayBus} {p : TrayProtocol} (h : s.watcher p = none) :
    s.answer (.getItems p) = { s with messages := s.messages ++ [.methodError p] } := by
  simp [TrayBus.answer, h]

theorem answer_getItems_some {s : TrayBus} {p : TrayProtocol} {w : TrayWatcher}
    (h : s.watcher p = some w) :
    s.answer (.getItems p) = { s with messages := s.messages ++ [.registeredItems p w.items] } := by
  simp [TrayBus.answer, h]

/-- **A call of the bar** is answered with all icons of the watcher, if there is one. -/
theorem TrayInv.answer {s : TrayBus} {c : HostCall} {calls : List HostCall}
    (hc : s.calls = c :: calls) (h : TrayInv s) :
    TrayInv ({ s with calls := calls }.answer c) := by
  -- a question that is still on its way is this one, or comes after it
  have hcovers : ∀ p, .getItems p ≠ c →
      Covers (s.itemsOf p) s.ids s.queue ∨ .getItems p ∈ calls := by
    intro p hp
    refine (h.covers p).imp_right fun hmem => ?_
    rw [hc, List.mem_cons] at hmem
    rcases hmem with hmem | hmem
    · exact absurd hmem hp
    · exact hmem
  cases c with
  | registerHost p service =>
      have hcalled : TrayInv { s with calls := calls } :=
        ⟨h.nodup, h.watched, fun q => hcovers q (by simp)⟩
      exact hcalled.watcherDoes _ ((hcalled.watched.tells p).2.1 service)
  | getItems p =>
      cases hw : ({ s with calls := calls } : TrayBus).watcher p with
      | none =>
          -- without a watcher there is nothing to cover
          rw [answer_getItems_none hw]
          refine ⟨h.nodup, h.watched, fun q => ?_⟩
          by_cases hq : q = p
          · subst hq
            refine Or.inl fun id hid => ?_
            have hnone : s.itemsOf q = [] := by
              rw [TrayBus.itemsOf]
              simp [show s.watcher q = none from hw]
            have hid' : id ∈ s.itemsOf q := hid
            rw [hnone] at hid'
            exact absurd hid' List.not_mem_nil
          · refine (hcovers q (by simpa using hq)).imp_left fun hcov => ?_
            show Covers _ _ ({ s with messages := s.messages ++ [.methodError p] } : TrayBus).queue
            rw [queue_eq_of_update_none rfl]
            exact hcov
      | some w =>
          rw [answer_getItems_some hw]
          refine ⟨h.nodup, h.watched, fun q => ?_⟩
          have hqueue : ({ s with calls := calls, messages :=
              s.messages ++ [.registeredItems p w.items] } : TrayBus).queue =
              s.queue ++ [.listed w.items] := by simp [TrayBus.queue, TrayMessage.update]
          rw [hqueue]
          by_cases hq : q = p
          · subst hq
            exact Or.inl (itemsOf_some hw ▸ Covers.listed _ _ _)
          · refine (hcovers q (by simpa using hq)).imp_left fun hcov => ?_
            refine Covers.foreign h.nodup hcov fun id hid u hu hmention => ?_
            obtain rfl := List.mem_singleton.1 hu
            exact TrayProtocol.not_names_of_ne hq ((h.watched p w hw).2 id hmention)
              ((h.watched.items q).2 id hid)

theorem TrayBus.Exact.answer {s : TrayBus} {p : TrayProtocol} {c : HostCall}
    {calls : List HostCall} (he : s.Exact p) (h : TrayInv s) :
    ({ s with calls := calls }.answer c).Exact p := by
  cases c with
  | registerHost q service =>
      unfold TrayBus.answer TrayBus.watcherDoes
      dsimp only
      cases hw : s.watcher q with
      | none => exact he
      | some w =>
          have hdone := he.watcherDoes h (fun w => (registerHost w service, []))
            (fun w hw => (h.watched.tells q).2.1 service w hw)
          unfold TrayBus.watcherDoes at hdone
          rw [hw] at hdone
          exact hdone
  | getItems q =>
      cases hw : ({ s with calls := calls } : TrayBus).watcher q with
      | none =>
          rw [answer_getItems_none hw]
          show Within _ _ _ ({ s with messages := s.messages ++ [.methodError q] } : TrayBus).queue
          rw [queue_eq_of_update_none rfl]
          exact he
      | some w =>
          have hqueue : ({ s with calls := calls, messages :=
              s.messages ++ [.registeredItems q w.items] } : TrayBus).queue =
              s.queue ++ [.listed w.items] := by simp [TrayBus.queue, TrayMessage.update]
          rw [answer_getItems_some hw]
          unfold TrayBus.Exact
          rw [hqueue]
          by_cases hq : p = q
          · subst hq
            have hitems : s.itemsOf p = w.items := itemsOf_some hw
            show Within p.Names (s.itemsOf p) s.ids _
            unfold TrayBus.Exact at he
            rw [hitems] at he ⊢
            exact he.listed
          · refine Within.foreign h.nodup he fun id hid u hu hmention => ?_
            obtain rfl := List.mem_singleton.1 hu
            exact TrayProtocol.not_names_of_ne hq ((h.watched q w hw).2 id hmention) hid

/-- **The step**: whatever happens, the bar will have all icons of the watchers. -/
theorem TrayInv.step {s : TrayBus} (h : TrayInv s) {e : TrayEvent} (he : e.Named) :
    TrayInv (s.step e) := by
  cases e with
  | registerItem p sender arg =>
      exact h.watcherDoes _ ((h.watched.tells p).1 sender arg he)
  | registerHost p service => exact h.watcherDoes _ ((h.watched.tells p).2.1 service)
  | nameLost p service => exact h.watcherDoes _ ((h.watched.tells p).2.2 service)
  | watcherLost p =>
      refine ⟨h.nodup, fun q w hw => ?_, fun q => (h.covers q).imp_left fun hcov id hid => ?_⟩
      all_goals by_cases hq : q = p
      · subst hq
        simp [TrayBus.step] at hw
      · exact h.watched q w (by simpa [TrayBus.step, Function.update_of_ne hq] using hw)
      · subst hq
        simp [TrayBus.step, TrayBus.itemsOf] at hid
      · exact hcov id (by simpa [TrayBus.step, TrayBus.itemsOf, Function.update_of_ne hq] using hid)
  | watcherStarted p =>
      unfold TrayBus.step
      dsimp only
      cases hw : s.watcher p with
      | some w => exact h
      | none =>
          refine ⟨h.nodup, fun q w hq => ?_, fun q => (h.covers q).imp_left fun hcov id hid => ?_⟩
          · by_cases hqp : q = p
            · subst hqp
              obtain rfl : (⟨[], []⟩ : TrayWatcher) = w := by simpa using hq
              exact ⟨List.nodup_nil, by simp⟩
            · exact h.watched q w (by simpa [Function.update_of_ne hqp] using hq)
          · by_cases hqp : q = p
            · subst hqp
              simp [TrayBus.itemsOf] at hid
            · have hmem := hcov id
                (by simpa [TrayBus.itemsOf, Function.update_of_ne hqp] using hid)
              rwa [← queue_eq_of_update_none (m := .newWatcher p) rfl] at hmem
  | call =>
      unfold TrayBus.step
      dsimp only
      cases hc : s.calls with
      | nil => exact h
      | cons c calls => exact h.answer hc
  | message =>
      unfold TrayBus.step
      dsimp only
      cases hm : s.messages with
      | nil => exact h
      | cons m messages =>
          have hsettled := settled_message hm
          refine ⟨?_, ?_, fun p => ?_⟩
          · rw [ids_handle]
            cases m.update with
            | none => exact h.nodup
            | some u => exact nodup_apply h.nodup u
          · cases m <;> exact h.watched
          · rcases h.covers p with hcov | hmem
            · left
              rw [itemsOf_handle, queue_handle]
              intro id hid
              rw [hsettled]
              exact hcov id hid
            · right
              cases m with
              | newWatcher q => exact List.mem_append_left _ hmem
              | itemRegistered => exact hmem
              | itemUnregistered => exact hmem
              | registeredItems => exact hmem
              | methodError => exact hmem

/-- As long as its watcher stays, a protocol has no icon too many. -/
theorem TrayBus.Exact.step {s : TrayBus} {p : TrayProtocol} (hx : s.Exact p) (h : TrayInv s)
    {e : TrayEvent} (he : e.Named) (hstays : e ≠ .watcherLost p) : (s.step e).Exact p := by
  cases e with
  | registerItem q sender arg => exact hx.watcherDoes h _ ((h.watched.tells q).1 sender arg he)
  | registerHost q service => exact hx.watcherDoes h _ ((h.watched.tells q).2.1 service)
  | nameLost q service => exact hx.watcherDoes h _ ((h.watched.tells q).2.2 service)
  | watcherLost q =>
      have hne : p ≠ q := fun heq => hstays (heq ▸ rfl)
      intro id hid hmem
      have := hx id hid hmem
      simpa [TrayBus.step, TrayBus.itemsOf, Function.update_of_ne hne] using this
  | watcherStarted q =>
      unfold TrayBus.step
      dsimp only
      cases hw : s.watcher q with
      | some w => exact hx
      | none =>
          intro id hid hmem
          have hmem' : id ∈ settled s.ids s.queue := by
            rwa [← queue_eq_of_update_none (m := .newWatcher q) rfl]
          have hold := hx id hid hmem'
          have hne : p ≠ q := by
            rintro rfl
            rw [TrayBus.itemsOf, hw] at hold
            exact absurd hold List.not_mem_nil
          simpa [TrayBus.itemsOf, Function.update_of_ne hne] using hold
  | call =>
      unfold TrayBus.step
      dsimp only
      cases s.calls with
      | nil => exact hx
      | cons c calls => exact hx.answer h
  | message =>
      unfold TrayBus.step
      dsimp only
      cases hm : s.messages with
      | nil => exact hx
      | cons m messages =>
          intro id hid hmem
          rw [queue_handle, settled_message hm] at hmem
          rw [itemsOf_handle]
          exact hx id hid hmem

section Run

variable {watcher : TrayProtocol → Option TrayWatcher} {service : TrayProtocol → String}

theorem trayInv_start (h : (TrayBus.start watcher service).Watched) :
    TrayInv (TrayBus.start watcher service) := by
  refine ⟨List.nodup_nil, h, fun p => Or.inr ?_⟩
  cases p <;> simp [TrayBus.start, registerToWatcher]

theorem exact_start (p : TrayProtocol) : (TrayBus.start watcher service).Exact p := by
  intro id _ hmem
  exact absurd hmem List.not_mem_nil

/-- **The tray converges**: whatever icons are registered and lost, whatever watchers come and go
and however the messages are interleaved, once the bus is idle the bar shows no icon twice and
every icon of each watcher; and of a protocol whose watcher was never lost it shows the watcher's
icons only. -/
theorem tray_converges (hwatched : (TrayBus.start watcher service).Watched)
    (es : List TrayEvent) (hes : ∀ e ∈ es, e.Named) {s : TrayBus}
    (hs : es.foldl TrayBus.step (TrayBus.start watcher service) = s)
    (hcalls : s.calls = []) (hmessages : s.messages = []) :
    s.ids.Nodup ∧ (∀ p, ∀ id ∈ s.itemsOf p, id ∈ s.ids) ∧
      ∀ p, .watcherLost p ∉ es → ∀ id, p.Names id → (id ∈ s.ids ↔ id ∈ s.itemsOf p) := by
  have hinv : TrayInv s := by
    rw [← hs]
    apply foldl_invariant TrayBus.step es _ (trayInv_start hwatched)
    exact fun t e he h => h.step (hes e he)
  have hqueue : s.queue = [] := by rw [TrayBus.queue, hmessages]; rfl
  have hcovers : ∀ p, ∀ id ∈ s.itemsOf p, id ∈ s.ids := by
    intro p id hid
    rcases hinv.covers p with hcov | hmem
    · have hshown := hcov id hid
      rwa [hqueue] at hshown
    · rw [hcalls] at hmem
      exact absurd hmem List.not_mem_nil
  refine ⟨hinv.nodup, hcovers, fun p hstays id hid => ⟨fun hmem => ?_, hcovers p id⟩⟩
  have hexact : TrayInv s ∧ s.Exact p := by
    rw [← hs]
    apply foldl_invariant TrayBus.step es (I := fun t => TrayInv t ∧ t.Exact p) _
      ⟨trayInv_start hwatched, exact_start p⟩
    rintro t e he ⟨h, hx⟩
    exact ⟨h.step (hes e he), hx.step h (hes e he) fun heq => hstays (heq ▸ he)⟩
  apply hexact.2 id hid
  rw [hqueue]
  exact hmem

end Run

/-- A program registers an icon with a watcher of another process while the bar starts. -/
theorem tray_converges_icon :
    ∃ s : TrayBus, s.ids = [":1.5/ni"] ∧ s.ids.Nodup ∧ ∀ p, ∀ id ∈ s.itemsOf p, id ∈ s.ids := by
  have hwatched : (TrayBus.start (fun _ => some ⟨[], []⟩) fun _ => "host").Watched := by
    intro p w hw
    obtain rfl : (⟨[], []⟩ : TrayWatcher) = w := by simpa [TrayBus.start] using hw
    exact ⟨List.nodup_nil, by simp⟩
  have h := tray_converges hwatched
    [.call, .call, .registerItem .kde ":1.5" "/ni", .message, .call, .call, .message, .message]
    (by simp [TrayEvent.Named]) rfl rfl rfl
  exact ⟨_, rfl, h.1, h.2.1⟩

end Swirl
