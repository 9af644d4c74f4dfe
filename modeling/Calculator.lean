import Calculator.Main
import Calculator.Proofs.Bindings
import Calculator.Proofs.Derivability
import Calculator.Proofs.Replies
import Calculator.Proofs.Normalization
import Calculator.Proofs.Words
import Calculator.Proofs.Agreement
import Calculator.Proofs.Literals
import Calculator.Proofs.Shells
import Calculator.Proofs.Scans
import Calculator.Proofs.Depths
import Calculator.Proofs.Obstacles
import Calculator.Proofs.Accounts
import Calculator.Proofs.SettledExpressions
import Calculator.Proofs.Listings
import Calculator.Proofs.Substitution
import Calculator.Proofs.Quotients
import Calculator.Proofs.SignedNames
import Calculator.Proofs.Layers
