import PassportSe.Welt
import PassportSe.Pulse
import PassportSe.Crc
import PassportSe.CrcFehler
import PassportSe.Empfang
import PassportSe.Befehl
import PassportSe.Lesen
import PassportSe.Protokoll
import PassportSe.Schreiben
import PassportSe.Draht
import PassportSe.Verlauf
import PassportSe.Treiber
import PassportSe.Chip
