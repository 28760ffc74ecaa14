import Calculator.Session
import Calculator.Tour
import Calculator.Main
import Calculator.Proofs.Machine
import Calculator.Proofs.Grammar
import Calculator.Proofs.Glyph
import Calculator.Proofs.Balance
import Calculator.Proofs.Spelling
import Calculator.Proofs.Printing
import Calculator.Proofs.Substitution
import Calculator.Proofs.Deletion
import Calculator.Proofs.Names
import Calculator.Proofs.Defects
import Calculator.Proofs.Inorder
import Calculator.Proofs.Calls
import Calculator.Proofs.Cursor
import Calculator.Proofs.Values
import Calculator.Proofs.Caret
import Calculator.Proofs.Integers
import Calculator.Proofs.OpenCalls
import Calculator.Proofs.Seam
import Calculator.Proofs.Cutting
import Calculator.Proofs.Outline
import Calculator.Proofs.Surroundings
