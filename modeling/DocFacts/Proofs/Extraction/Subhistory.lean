import DocFacts.Proofs.Extraction.History
import DocFacts.Proofs.List

/-!
# Parts of a history

Which comments stand for the names of a declaration depends on the first requests of a history
alone.  So it is the same in a part of the history that holds on to these requests, such as the
requests of a class of declarations (`owner?_ofClass`, `member?_ofClass`).
-/

namespace DocFacts

namespace History

/-- The requests of a history whose declarations are in a class. -/
def ofClass (good : Declaration → Bool) (history : History) : History :=
  history.filter fun r => good r.owner

variable {good : Declaration → Bool} {history : History} {d : Declaration} {m : Member}

theorem ofClass_append (history more : History) :
    ofClass good (history ++ more) = ofClass good history ++ ofClass good more :=
  List.filter_append ..

theorem owner_of_mem_requests {r : Request} (h : r ∈ d.requests) : r.owner = d := by
  obtain ⟨m, -, rfl⟩ := List.mem_map.1 h
  rfl

theorem mem_requests_iff {b : Declaration} : .member b m ∈ d.requests ↔ b = d ∧ m ∈ d.members := by
  rw [Declaration.requests, List.mem_map]
  constructor
  · rintro ⟨m', hm', heq⟩
    obtain ⟨rfl, rfl⟩ := Request.member.inj heq
    exact ⟨rfl, hm'⟩
  · rintro ⟨rfl, hm⟩
    exact ⟨m, hm, rfl⟩

/-- Of the requests of one declaration the class has all or none. -/
theorem ofClass_eq_self {requests : History} (hsub : requests ⊆ d.requests) (hd : good d = true) :
    ofClass good requests = requests :=
  List.filter_eq_self.2 fun _ hr => (owner_of_mem_requests (hsub hr)).symm ▸ hd

theorem ofClass_eq_nil {requests : History} (hsub : requests ⊆ d.requests)
    (hd : good d = false) : ofClass good requests = [] :=
  List.filter_eq_nil_iff.2 fun r hr => by rw [owner_of_mem_requests (hsub hr), hd]; simp

/-! ### First comments -/

/-- Without requests of others, the comment that stands for a declaration is its own. -/
theorem base_requests (d : Declaration) : base d.requests d = d.comment := by
  cases ho : owner? d.requests d.name with
  | none => rw [base, ho]; rfl
  | some b =>
    obtain ⟨⟨r, hr, rfl⟩, -⟩ := mem_of_owner? ho
    rw [base_of_owner? ho, owner_of_mem_requests hr]

theorem map_owner_ofClass (history : History) :
    (ofClass good history).map Request.owner = (history.map Request.owner).filter good :=
  List.filter_map.symm

theorem filterMap_member?_ofClass (history : History) :
    (ofClass good history).filterMap Request.member? =
      (history.filterMap Request.member?).filter fun dm => good dm.1 := by
  rw [ofClass, List.filterMap_filter, List.filter_filterMap]
  refine congrArg (List.filterMap · history) (funext fun r => ?_)
  cases r with
  | declaration d => simp [Request.member?]
  | member d m => cases h : good d <;> simp [Request.member?, Request.owner, Option.filter, h]

theorem owner?_ofClass {name : String} (h : history.owner? name = some d) (hd : good d = true) :
    owner? (ofClass good history) name = some d := by
  rw [owner?, map_owner_ofClass]
  exact List.find?_filter_of_find? h hd

theorem member?_ofClass {names : String × String} (h : history.member? names = some (d, m))
    (hd : good d = true) : member? (ofClass good history) names = some (d, m) := by
  rw [member?, filterMap_member?_ofClass]
  exact List.find?_filter_of_find? h hd

end History

end DocFacts
